import HostPrereqs.Host.Flag
import HostPrereqs.Log.Record
import HostPrereqs.Number.Numeral

/-!
# Host — the machine and the session on it

`Machine` holds what does not change while conditions are tested: the system, the interpreter,
what is installed, how the interpreter was built, and what compilers do.  `Streams` says what is at
the other ends of the input and the output.  `Host` adds what changes: the environment, the unread
input, and everything that was written, compiled, called and logged so far.  An action on the host
is a state transition (`OnHost`).

Looking something up, running a compiler, reading and writing can go wrong in ways that are no
answer (`HostFault`); an action to which this can happen is a `HostAction`.

Input is read line by line, and its streams differ in what ends a line (`LineEnds`);
`takeLine_append` says that a line and the rest are the whole input.
-/

namespace HostPrereqs

/-- What goes wrong on a host without being an answer. -/
inductive HostFault where
  /-- It cannot be found out what is installed. -/
  | lookup
  /-- A compiler cannot be tried, or what it says cannot be read. -/
  | compiler
  | input
  | output
  /-- A version that is found has a numeral that is too long. -/
  | hugeNumber (cause : Numeral.Excess)
deriving DecidableEq, Repr

/-- What looking for a module ends with. -/
inductive ModuleSearch where
  | found
  | missing
  | fails (reason : String)
  | breaks
deriving DecidableEq, Repr

/-- What looking for a distribution ends with: an installed one may have no version. -/
inductive DistributionSearch where
  | installed (version : Option String)
  | missing
  | breaks
deriving DecidableEq, Repr

/-- What running a compiler ends with. -/
inductive Compilation where
  | exits (status : Int) (diagnosis : String)
  | timesOut
  | cannotStart (reason : String)
  | breaks
deriving DecidableEq, Repr

/-- The unchanging facts of a host. -/
structure Machine where
  osName : String
  interpreterVersion : String
  /-- The commands on the search path. -/
  commands : List String
  /-- What looking for distributions ends with; one that is not listed is missing. -/
  distributions : List (String × DistributionSearch)
  /-- The distributions that provide a top-level package, if they can be listed. -/
  providers : Option (List (String × List String))
  modules : List (String × ModuleSearch)
  /-- How the interpreter was built. -/
  buildValues : List (String × Value)
  includeDirectory : String
  scratchDirectory : String
  /-- What running a compiler with its arguments ends with. -/
  compilation : List String → Compilation
  /-- What a compiler leaves of the unread input, which is its own input too. -/
  compilerLeaves : List String → List Char → List Char

/-- What is at the other end of a stream. -/
inductive StreamKind where
  | terminal
  | pipe
  | file
  /-- A device that is no terminal. -/
  | device
  /-- Nothing that the system knows. -/
  | unconnected
deriving DecidableEq, Repr

/-- What ends a line of input. -/
inductive LineEnds where
  /-- A line feed. -/
  | lineFeed
  /-- A line feed, a carriage return, or both together. -/
  | any
deriving DecidableEq, Repr

/-- The streams of a session. -/
structure Streams where
  inputKind : StreamKind
  outputKind : StreamKind
  lineEnds : LineEnds
  /-- Instead of coming to its end, reading the input fails after the last line feed. -/
  inputFails : Bool
  /-- How many characters of a text are written after what has been written, if writing fails. -/
  outputStops : String → String → Option Nat

/-- One run of the compiler. -/
structure CompilerRun where
  argv : List String
  timeout : Nat
  source : String
deriving DecidableEq, Repr

/-- One call of a predicate. -/
structure Call where
  predicate : String
  args : List String
deriving DecidableEq, Repr

/-- A host in the course of a session. -/
structure Host where
  machine : Machine
  environment : List (String × String)
  streams : Streams
  /-- Every question is answered with its default. -/
  defaultsOnly : Bool
  input : List Char
  written : String
  compilerRuns : List CompilerRun
  calls : List Call
  log : List Log.Record

/-- An action on a host. -/
abbrev OnHost (α : Type) := StateM Host α

/-- An action on a host in which something can go wrong. -/
abbrev HostAction (α : Type) := ExceptT HostFault OnHost α

namespace Host

/-- Of two actions in turn the second one is done where the first succeeds. -/
theorem run_bind {ε α β : Type} (m : ExceptT ε OnHost α) (f : α → ExceptT ε OnHost β) (h : Host) :
    (m >>= f) h = match m h with
      | (.ok a, h') => f a h'
      | (.error e, h') => (.error e, h') := by
  change (let (x, h') := m h; ExceptT.bindCont f x h') = _
  obtain ⟨x, h'⟩ := m h
  cases x <;> rfl

/-! ### Records -/

/-- Adds a record to the log. -/
def report (r : Log.Record) : OnHost Unit := modify fun h => { h with log := h.log ++ [r] }

/-- Runs an action that cannot read the log; what it reports is added to the log. -/
def aside {α : Type} (m : OnHost α) : OnHost α := fun h =>
  let (a, h') := m { h with log := [] }
  (a, { h' with log := h.log ++ h'.log })

/-! ### The environment -/

/-- The value of an environment variable. -/
def valueOf? (h : Host) (name : String) : Option String := h.environment.lookup name

def setVariable (name value : String) : OnHost Unit :=
  modify fun h =>
    { h with environment := (name, value) :: h.environment.filter (·.1 != name) }

def unsetVariable (name : String) : OnHost Unit :=
  modify fun h => { h with environment := h.environment.filter (·.1 != name) }

/-! ### Lines -/

/-- Whether a line ends after a character, before the rest of the text. -/
def endsLine (ends : LineEnds) (c : Char) (rest : List Char) : Bool :=
  c = '\n' || (c = '\r' && ends = .any && rest.head? != some '\n')

/-- Takes the first line, with its end, off a text. -/
def takeLine (ends : LineEnds) : List Char → List Char × List Char
  | [] => ([], [])
  | c :: r =>
      if endsLine ends c r then ([c], r)
      else let (line, rest) := takeLine ends r; (c :: line, rest)

variable {ends : LineEnds}

theorem takeLine_append (ends : LineEnds) (s : List Char) :
    (takeLine ends s).1 ++ (takeLine ends s).2 = s := by
  fun_induction takeLine ends s <;> simp_all

theorem takeLine_fst_eq_nil {s : List Char} (h : (takeLine ends s).1 = []) : s = [] := by
  fun_induction takeLine ends s <;> simp_all

theorem length_takeLine_snd {s : List Char} (h : (takeLine ends s).1 ≠ []) :
    (takeLine ends s).2.length < s.length := by
  have hs := congrArg List.length (takeLine_append ends s)
  have := List.length_pos_iff.2 h
  simp only [List.length_append] at hs
  omega

/-- A line without its end. -/
def lineText (line : List Char) : List Char :=
  (line.reverse.dropWhile fun c => c = '\r' || c = '\n').reverse

end Host

end HostPrereqs
