/-!
# Text — similar words

How similar two words are is measured by the blocks that they share: the longest common block,
then the longest ones before it and after it, and so on (`matched`).  Nothing is matched twice
(`matched_le_left`, `matched_le_right`).  A misspelled word is answered with the words that share
at least three fifths of all letters with it.
-/

namespace HostPrereqs.Text

/-- How many characters two texts begin with alike. -/
def commonStart : List Char → List Char → Nat
  | a :: as, b :: bs => if a = b then commonStart as bs + 1 else 0
  | _, _ => 0

theorem commonStart_le_left (as bs : List Char) : commonStart as bs ≤ as.length := by
  fun_induction commonStart as bs <;> simp_all

theorem commonStart_le_right (as bs : List Char) : commonStart as bs ≤ bs.length := by
  fun_induction commonStart as bs <;> simp_all

/-- A block that two texts share: where it is in the first and in the second, and how long it is. -/
structure Block where
  left : Nat
  right : Nat
  size : Nat
deriving DecidableEq, Repr

/-- The longer one of two blocks; the first one if they are equally long. -/
def Block.longer (a b : Block) : Block := if a.size < b.size then b else a

/-- The places of a text, from its beginning to its end. -/
def places (s : List Char) : List Nat := List.range (s.length + 1)

/-- The block that starts at two places. -/
def blockAt (as bs : List Char) (i j : Nat) : Block :=
  ⟨i, j, commonStart (as.drop i) (bs.drop j)⟩

/-- The longest block that two texts share, and the first one of these. -/
def longestBlock (as bs : List Char) : Block :=
  (places as).foldl (fun best i =>
    (places bs).foldl (fun best j => best.longer (blockAt as bs i j)) best) ⟨0, 0, 0⟩

/-- How many characters of two texts are matched by blocks. -/
def matched (as bs : List Char) : Nat :=
  match longestBlock as bs with
  | ⟨i, j, k⟩ =>
      if _h : 0 < k ∧ i + k ≤ as.length ∧ j + k ≤ bs.length then
        k + matched (as.take i) (bs.take j) + matched (as.drop (i + k)) (bs.drop (j + k))
      else 0
termination_by as.length
decreasing_by
  · simp only [List.length_take]
    omega
  · simp only [List.length_drop]
    omega

theorem matched_le_left (as bs : List Char) : matched as bs ≤ as.length := by
  rw [matched]
  rcases longestBlock as bs with ⟨i, j, k⟩
  dsimp only
  split
  · rename_i h
    have hl := matched_le_left (as.take i) (bs.take j)
    have hr := matched_le_left (as.drop (i + k)) (bs.drop (j + k))
    simp only [List.length_take, List.length_drop] at hl hr
    omega
  · exact Nat.zero_le _
termination_by as.length
decreasing_by
  · simp only [List.length_take]
    omega
  · simp only [List.length_drop]
    omega

theorem matched_le_right (as bs : List Char) : matched as bs ≤ bs.length := by
  rw [matched]
  rcases longestBlock as bs with ⟨i, j, k⟩
  dsimp only
  split
  · rename_i h
    have hl := matched_le_right (as.take i) (bs.take j)
    have hr := matched_le_right (as.drop (i + k)) (bs.drop (j + k))
    simp only [List.length_take, List.length_drop] at hl hr
    omega
  · exact Nat.zero_le _
termination_by as.length
decreasing_by
  · simp only [List.length_take]
    omega
  · simp only [List.length_drop]
    omega

/-- Whether two words share at least three fifths of all letters. -/
def isSimilar (a b : String) : Bool :=
  3 * (a.length + b.length) ≤ 10 * matched a.toList b.toList

/-- Whether the first of two words is the more similar one to `word`; of equally similar ones the
later in the alphabet comes first. -/
def isCloser (word a b : String) : Bool :=
  let left := matched a.toList word.toList * (b.length + word.length)
  let right := matched b.toList word.toList * (a.length + word.length)
  right < left || (left = right && b ≤ a)

/-- The words most similar to a misspelled one, three at most, in alphabetical order. -/
def similarWords (word : String) (words : List String) : List String :=
  (((words.filter (isSimilar · word)).mergeSort (isCloser word)).take 3).mergeSort (· ≤ ·)

end HostPrereqs.Text
