import Microbench.Task.Failure

/-!
# Fixtures

State lives in three scopes, and a fixture may be declared for every scope at
every level.  Setup goes from the widest scope to the narrowest, teardown back.

## Main definitions

* `Scope`, `Stage` — the scopes, and the two directions with the order of scopes in each.
* `Fixtures` — which fixtures a task declares.
-/

namespace Microbench

/-- How widely a piece of state is shared. -/
inductive Scope
  /-- By the whole benchmark. -/
  | benchmark
  /-- By the threads of a group. -/
  | group
  /-- By nobody. -/
  | thread
  deriving DecidableEq, Repr, Inhabited

/-- The scopes from the widest to the narrowest. -/
def Scope.all : List Scope := [benchmark, group, thread]

/-- Whether fixtures prepare or clear up. -/
inductive Stage
  /-- They prepare. -/
  | setup
  /-- They clear up. -/
  | teardown
  deriving DecidableEq, Repr, Inhabited

/-- The order of the scopes at a stage. -/
def Stage.scopes : Stage → List Scope
  | setup => Scope.all
  | teardown => Scope.all.reverse

/-- The site of a fixture that fails. -/
def Stage.site (level : Level) : Stage → Site
  | setup => .setup level
  | teardown => .teardown level

/-- Which fixtures a task declares. -/
structure Fixtures where
  /-- Whether the fixture of a level and a scope is declared. -/
  has : Level → Scope → Bool

namespace Fixtures

/-- No fixture. -/
def none : Fixtures := ⟨fun _ _ => false⟩

instance : Inhabited Fixtures := ⟨none⟩

/-- The place of a level among the levels. -/
def levelIndex : Level → Nat
  | .trial => 0
  | .iteration => 1
  | .invocation => 2

/-- The place of a scope among the scopes. -/
def scopeIndex : Scope → Nat
  | .benchmark => 0
  | .group => 1
  | .thread => 2

/-- The fixtures of a set of bits: three for each level, one for each scope. -/
def ofBits (bits : Nat) : Fixtures :=
  ⟨fun level scope => bits.testBit (3 * levelIndex level + scopeIndex scope)⟩

/-- Whether any scope declares a fixture of this level. -/
def anyAt (f : Fixtures) (level : Level) : Bool := Scope.all.any (f.has level)

end Fixtures

end Microbench
