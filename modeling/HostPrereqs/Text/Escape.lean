/-!
# Text — terminal escape sequences

A terminal escape sequence is the escape character, an opening square bracket, digits, semicolons
and question marks, and a basic letter.  `stripEscapes` takes them out of a text that does not
go to a terminal.
-/

namespace HostPrereqs.Text

/-- Characters between the bracket and the letter of an escape sequence. -/
def isParameter (c : Char) : Bool := c.isDigit || c = ';' || c = '?'

/-- What follows an escape sequence whose bracket has been read. -/
def afterSequence? : List Char → Option (List Char)
  | [] => none
  | c :: s => if isParameter c then afterSequence? s else if c.isAlpha then some s else none

theorem length_afterSequence? {s r : List Char} (h : afterSequence? s = some r) :
    r.length < s.length := by
  induction s with
  | nil => simp [afterSequence?] at h
  | cons c s ih =>
      simp only [afterSequence?] at h
      split at h
      · have := ih h
        simp only [List.length_cons]
        omega
      · split at h
        · obtain rfl := Option.some.inj h
          simp
        · cases h

/-- A text without its escape sequences. -/
def dropEscapes (s : List Char) : List Char :=
  match s with
  | '\x1b' :: '[' :: r =>
      match _h : afterSequence? r with
      | some rest => dropEscapes rest
      | none => '\x1b' :: dropEscapes ('[' :: r)
  | c :: r => c :: dropEscapes r
  | [] => []
termination_by s.length
decreasing_by
  · have := length_afterSequence? _h
    simp only [List.length_cons]
    omega
  all_goals simp

def stripEscapes (s : String) : String := String.ofList (dropEscapes s.toList)

end HostPrereqs.Text
