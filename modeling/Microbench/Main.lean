import Microbench.CommandLine.Run
import Microbench.Engine.Sink
import Microbench.Session.InMemory
import Microbench.Task.Bindings

/-!
# The program

The program on a real machine, with three tasks to try it with.  What runs here is
only what talks to the machine: the clock, the counters of the process, the
configuration file, the standard input and output.  Workers live in the memory of
the program.

## Main definitions

* `Live.registry` — the tasks.
* `Live.host` — the machine.
* `Live.surroundings` — where the program runs.
* `main` — the program.
-/

namespace Microbench.Live

/-! ### Tasks to try the program with -/

/-- The states of all threads, by the places of the threads. -/
abbrev PerThread (α : Type) := IO.Ref (Array α)

/-- Put a state in the place of a thread. -/
def PerThread.store {α : Type} [Inhabited α] (states : PerThread α) (seat : Seat) (a : α) :
    IO Unit :=
  states.modify fun all =>
    (all ++ Array.replicate (seat.index + 1 - all.size) default).set! seat.index a

/-- The state of a thread. -/
def PerThread.load {α : Type} [Inhabited α] (states : PerThread α) (seat : Seat) : IO α := do
  return (← ST.Ref.get states)[seat.index]!

/-- Numbers without a pattern. -/
def scattered (len : Nat) : Array UInt64 :=
  Array.ofFn fun (i : Fin len) => UInt64.ofNat i.val * 0x9e3779b97f4a7c15

/-- Add up numbers that are made anew before every iteration. -/
def vectorSum : TaskEntry IO where
  declaration := ⟨"vec_sum", .averageTime, [], [⟨"len", ["64", "4096"]⟩]⟩
  create bindings := do
    let len ← ofExcept
      ((bindings.bound "len" Whole.read64 Whole.Error.message).mapError Abort.error)
    let vectors : PerThread (Array UInt64) ← IO.mkRef #[]
    let sink ← IO.mkRef (Sink.ofSeed 1)
    return {
      fixtures := ⟨fun level scope => level = .iteration ∧ scope = .thread⟩
      call
        | .fixture .setup .iteration (.thread seat) => do
          vectors.store seat (scattered len)
          return {}
        | .invoke seat => do
          let total := (← vectors.load seat).foldl (· + ·) 0
          sink.modify (·.consume (.word total))
          return {}
        | _ => return {} }

/-- A queue that one group fills and another empties. -/
def queue : TaskEntry IO where
  declaration := ⟨"queue", .throughput, [⟨"producer", 1⟩, ⟨"consumer", 1⟩], []⟩
  create _ := do
    let items ← IO.mkRef ((0, 0) : Nat × Nat)
    return {
      fixtures := ⟨fun level scope => level = .iteration ∧ scope = .benchmark⟩
      call
        | .fixture .teardown .iteration .benchmark => do
          items.modify fun (_, last) => (last, last)
          return {}
        | .invoke seat => do
          if seat.groupName = "producer" then
            items.modify fun (first, last) => (first, last + 1)
            return {}
          else
            let taken ← items.modifyGet fun (first, last) =>
              (decide (first < last), (min (first + 1) last, last))
            if taken then return {}
            else return { recordings := [{ label := "queue.empty", value := 1.0, policy := .sum }] }
        | _ => return {} }

/-- One cold allocation of a large buffer. -/
def coldAllocation : TaskEntry IO where
  declaration := ⟨"cold_alloc", .singleShot, [], []⟩
  create _ := do
    let sink ← IO.mkRef (Sink.ofSeed 1)
    return {
      fixtures := .none
      call
        | .invoke _ => do
          let buffer := ByteArray.mk (Array.replicate (1 <<< 20) 1)
          sink.modify (·.consume (.word (UInt64.ofNat buffer.size)))
          return {}
        | _ => return {} }

/-- The tasks of the program. -/
def registry : Registry IO := .ofList [vectorSum, queue, coldAllocation]

/-! ### The machine -/

/-- A number at a place among words; nought if there is none. -/
def numberAt (words : List String) (i : Nat) : Nat := ((words[i]?).bind String.toNat?).getD 0

/-- The words of a line. -/
def wordsOf (line : String) : List String :=
  ((line.split Char.isWhitespace).toList.map (·.toString)).filter (· != "")

/-- The words behind a name at the start of a line. -/
def wordsBehind (name text : String) : List String :=
  (text.splitOn "\n").flatMap fun line =>
    if line.startsWith name then wordsOf (line.drop name.length).toString else []

/-- The words behind the name of the program in the system's line on a process. -/
def statusWords (stat : String) : List String :=
  match (stat.splitOn ")").getLast? with
  | some tail => wordsOf tail
  | none => []

/-- How many milliseconds a tick of the system's clock has. -/
def tickMillis : Float := 10.0

/-- What the process has used up, from the system's line and its table on the process. -/
def usageOf (stat status : String) : Usage :=
  let words := statusWords stat
  { userMillis := Float.ofNat (numberAt words 11) * tickMillis
    systemMillis := Float.ofNat (numberAt words 12) * tickMillis
    voluntarySwitches := numberAt (wordsBehind "voluntary_ctxt_switches:" status) 0
    involuntarySwitches := numberAt (wordsBehind "nonvoluntary_ctxt_switches:" status) 0
    minorFaults := numberAt words 7
    majorFaults := numberAt words 9 }

/-- The content of a file; nothing if it cannot be read. -/
def contentOf (path : String) : IO String := do
  try IO.FS.readFile path
  catch _ => return ""

/-- The machine. -/
def host : Host IO where
  now := do return ⟨← IO.monoNanosNow⟩
  usage := do return usageOf (← contentOf "/proc/self/stat") (← contentOf "/proc/self/status")

/-- The recorder of samples: there is none. -/
def recorder : Recorder IO where
  start _ := return .error "no recording without processes"
  script _ := return none

/-! ### The surroundings -/

/-- The text of the configuration file that counts for the working directory. -/
def configText : IO (Option String) := do
  let here ← IO.currentDir
  for parts in Config.candidates (here.components.filter (· != "")) do
    let file := here.join ("/" ++ "/".intercalate parts : String)
    if (← file.pathExists) && !(← file.isDir) then return some (← IO.FS.readFile file)
  return none

/-- What the program finds where it runs. -/
structure Findings where
  /-- The program as a command. -/
  program : String
  /-- The text of the configuration file that counts. -/
  config : Option String
  /-- The setting that names the channel of a worker. -/
  channel : Option String
  /-- The setting that names the probes of a worker. -/
  probes : Option String

/-- Look around. -/
def find : IO Findings := do
  return {
    program := (← IO.appPath).toString
    config := ← configText
    channel := ← IO.getEnv "TRIALBENCH_IPC_FD"
    probes := ← IO.getEnv "TRIALBENCH_PROFILERS" }

/-- Where the program runs. -/
def surroundings (f : Findings) : CommandLine.Surroundings IO where
  registry := registry
  host := host
  launcher := .inMemory (fun probes => { registry, host, probes }) fun _ => .ok none
  recorder := recorder
  program := f.program
  config := f.config
  channel := f.channel
  probes := f.probes

/-! ### The program -/

/-- The next line of the standard input. -/
def nextLine (stdin : IO.FS.Stream) : IO (Except Line.Error String) := do
  try
    let line ← stdin.getLine
    return ({ bytes := line.toUTF8 } : ByteSource).readLine.1
  catch _ => return .error .notText

/-- Serve as a worker, line by line. -/
partial def serve (w : Workshop IO) (session : Session IO) : IO (Except WorkerError Unit) := do
  match session with
  | .ended result => return result
  | session =>
    let (written, session) ← session.hear w (← nextLine (← IO.getStdin))
    let stdout ← IO.getStdout
    for line in written do stdout.putStrLn line
    stdout.flush
    serve w session

/-- Whether the arguments make the program a worker. -/
def isWorker (args : List String) : Bool :=
  match CommandLine.parse args with
  | .ok o => o.has .worker
  | .error _ => false

/-- What the program ends with, in words. -/
def complaint : CommandLine.Error → String
  | .usage => "error: invalid arguments\n\nFor more information, try '--help'."
  | .config => "Error: invalid configuration"
  | .run message => "Error: " ++ message
  | .broken message => message

/-- The program. -/
def run (args : List String) : IO CommandLine.Result := do
  let s := surroundings (← find)
  match isWorker args, CommandLine.openChannel s.channel with
  | true, .ok none =>
    return { error := CommandLine.workError? (← serve s.workshop .waiting) }
  | _, _ => CommandLine.run s args

end Microbench.Live

/-- The program. -/
def main (args : List String) : IO UInt32 := do
  let result ← Microbench.Live.run args
  IO.print result.stdout
  match result.error with
  | some e => IO.eprintln (Microbench.Live.complaint e)
  | none => pure ()
  return UInt32.ofNat result.code
