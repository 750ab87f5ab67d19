import Microbench.CommandLine.Help

/-!
# Reading the command line

Arguments are read from left to right.  One that starts with a dash names options;
an option takes its value from the rest of its argument or from the next one,
which must not name options itself.  Any other argument names a subcommand, after
which nothing may follow, or it is the filter.

## Main definitions

* `parse` — the reader.
* `Refusal` — why there is nothing to run.
-/

namespace Microbench.CommandLine

/-- Why there is nothing to run. -/
inductive Refusal
  /-- The arguments make no sense. -/
  | usage
  /-- The arguments ask for help. -/
  | help (topic : Topic)
  /-- The arguments ask for the version. -/
  | version
  deriving DecidableEq, Repr

/-- Options, if an argument makes sense. -/
def orUsage (o : Option Options) : Except Refusal Options :=
  match o with
  | some o => .ok o
  | none => .error .usage

/-- Whether an argument names options. -/
def namesOptions (arg : String) : Bool := arg.startsWith "-" && arg != "-"

/-- An option without a value. -/
def switch (o : Options) : Switch → Except Refusal Options
  | .help => .error (.help .program)
  | .version => .error .version
  | s => orUsage (o.turn s)

/-- What an argument leads to: the options so far, and the option that still needs a value. -/
abbrev Step := Options × Option Setting

/-- Cut at the first equals sign. -/
def cutEquals (cs : List Char) : List Char × Option (List Char) :=
  let name := cs.takeWhile (· != '=')
  match cs.drop name.length with
  | [] => (name, none)
  | _ :: value => (name, some value)

/-- A long option, without its dashes. -/
def long (o : Options) (cs : List Char) : Except Refusal Step := do
  let (name, value) := cutEquals cs
  match longNames.lookup (String.ofList name), value with
  | some (.setting s), some value => return (← orUsage (o.set s (String.ofList value)), none)
  | some (.setting s), none => return (o, some s)
  | some (.switch s), none => return (← switch o s, none)
  | _, _ => throw .usage

/-- Short options, without their dash.  The first that takes a value takes the rest. -/
def short : Options → List Char → Except Refusal Step
  | o, [] => .ok (o, none)
  | o, c :: cs =>
    match shortNames.lookup c with
    | some (.switch s) => do short (← switch o s) cs
    | some (.setting s) =>
      match cs with
      | [] => .ok (o, some s)
      | '=' :: value => (orUsage (o.set s (String.ofList value))).map (·, none)
      | value => (orUsage (o.set s (String.ofList value))).map (·, none)
    | none => .error .usage

/-- The filter. -/
def positional (o : Options) (arg : String) : Except Refusal Options :=
  if o.filter.isSome then .error .usage else .ok { o with filter := some arg }

/-- What follows a subcommand. -/
def afterSubcommand (o : Options) (s : Subcommand) : List String → Except Refusal Options
  | [] => .ok { o with subcommand := some s }
  | ["--"] => .ok { o with subcommand := some s }
  | arg :: _ =>
    .error (if arg.startsWith "-h" ∨ arg = "--help" then .help (.subcommand s) else .usage)

/-- The help that the words after the subcommand for help ask for. -/
def helpFor : List String → Refusal
  | [] => .help .program
  | [word] =>
    match Topic.named? word with
    | some topic => .help topic
    | none => .usage
  | _ => .usage

/-- The arguments from one on; `pending` is an option that needs a value. -/
def parseFrom (o : Options) (pending : Option Setting) : List String → Except Refusal Options
  | [] => if pending.isSome then .error .usage else .ok o
  | arg :: rest =>
    match pending with
    | some s =>
      if namesOptions arg then .error .usage
      else do parseFrom (← orUsage (o.set s arg)) none rest
    | none =>
      if arg = "--" then rest.foldlM positional o
      else
        match arg.toList with
        | '-' :: '-' :: name => do
          let (o, pending) ← long o name
          parseFrom o pending rest
        | '-' :: c :: cs => do
          let (o, pending) ← short o (c :: cs)
          parseFrom o pending rest
        | _ =>
          match subcommandNames.lookup arg with
          | some s => afterSubcommand o s rest
          | none =>
            if arg = helpName then .error (helpFor rest)
            else do parseFrom (← positional o arg) none rest

/-- Read the arguments of the program. -/
def parse (args : List String) : Except Refusal Options := parseFrom {} none args

end Microbench.CommandLine
