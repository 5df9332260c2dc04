import HostPrereqs.Yaml.Fault
import HostPrereqs.Yaml.Tag
import HostPrereqs.Yaml.Token

/-!
# Yaml — nodes

The tokens of a document make up a tree of scalars, sequences and mappings (`Node`), each with
its tag; an alias stands for the node that its anchor was given to.  Inside that node itself an
alias stands for an empty one of the same kind.

Each reader of a part returns the tokens after it with the proof that they are fewer, and ends
by their number.
-/

namespace HostPrereqs.Yaml

/-- A part of a document. -/
inductive Node where
  | scalar (tag : Tag) (text : String)
  | sequence (tag : Tag) (items : List Node)
  | mapping (tag : Tag) (pairs : List (Node × Node))

namespace Node

instance : Inhabited Node := ⟨scalar .null ""⟩

/-- What stands where nothing is written. -/
def absent : Node := scalar .null ""

/-- The nodes that have anchors. -/
abbrev Anchors := List (String × Node)

/-- The handles of tags and what they stand for. -/
abbrev Handles := List (String × String)

abbrev Fewer (ts : List Token) := { r : List Token // r.length < ts.length }

abbrev NotMore (ts : List Token) := { r : List Token // r.length ≤ ts.length }

/-- A part that was read, the anchors so far, and the tokens that are left. -/
abbrev Read (α : Type) (ts : List Token) := Except Fault (α × Anchors × Fewer ts)

/-! ### Properties -/

/-- The anchor and the tag in front of a node. -/
structure Properties where
  anchor : Option String
  tag : Option (Option String × String)

/-- Takes an anchor and a tag, in either order, each at most once. -/
def takeProperties (ts : List Token) : Properties × NotMore ts :=
  match ts with
  | .anchor a :: .tag h s :: r => (⟨some a, some (h, s)⟩, ⟨r, by simp; omega⟩)
  | .tag h s :: .anchor a :: r => (⟨some a, some (h, s)⟩, ⟨r, by simp; omega⟩)
  | .anchor a :: r => (⟨some a, none⟩, ⟨r, by simp⟩)
  | .tag h s :: r => (⟨none, some (h, s)⟩, ⟨r, by simp⟩)
  | ts => (⟨none, none⟩, ⟨ts, Nat.le_refl _⟩)

/-- The full name of a tag. -/
def tagName (handles : Handles) : Option (Option String × String) → Except Fault (Option String)
  | none => .ok none
  | some (none, suffix) => .ok (some suffix)
  | some (some handle, suffix) =>
      match handles.lookup handle with
      | some start => .ok (some (start ++ suffix))
      | none => .error .badStructure

/-- A tag that leaves the kind of value open. -/
def isOpen (name : Option String) : Bool := name = none || name = some "!"

def scalarTag (name : Option String) (text : String) (plain : Bool) : Tag :=
  match name with
  | some "!" => Tag.ofPlain text
  | some name => Tag.ofName name
  | none => if plain then Tag.ofPlain text else .str

def collectionTag (name : Option String) (usual : Tag) : Tag :=
  match name with
  | some "!" | none => usual
  | some name => Tag.ofName name

/-- Gives a node its anchor. -/
def bind (anchor : Option String) (n : Node) (anchors : Anchors) : Anchors :=
  match anchor with
  | some a => (a, n) :: anchors
  | none => anchors

/-! ### Trees -/

/-- What may not start a node where one may be left out. -/
abbrev Stops := Token → Bool

def stopsItem : Stops
  | .blockEntry | .blockEnd => true
  | _ => false

def stopsIndentlessItem : Stops
  | .blockEntry | .key | .value | .blockEnd => true
  | _ => false

def stopsPart : Stops
  | .key | .value | .blockEnd => true
  | _ => false

def stopsFlowKey (closing : Token) : Stops
  | .value | .flowEntry => true
  | t => t = closing

def stopsFlowValue (closing : Token) : Stops
  | .flowEntry => true
  | t => t = closing

/-- The places where a node may stand. -/
structure Place where
  /-- Block collections may stand there. -/
  block : Bool
  /-- Items of a sequence may stand there without indentation. -/
  indentless : Bool

/-- The node that properties alone stand for. -/
def empty (name anchor : Option String) (anchors : Anchors)
    (ts r : List Token) : Read Node ts :=
  if h : r.length < ts.length then
    let n := scalar (if isOpen name then .null else scalarTag name "" false) ""
    .ok (n, bind anchor n anchors, ⟨r, h⟩)
  else .error .badStructure

/-- Skips the comma that every entry of a flow collection but the first has before it. -/
def afterEntry (first : Bool) (ts : List Token) : Except Fault (NotMore ts) :=
  if first then .ok ⟨ts, Nat.le_refl _⟩
  else
    match ts with
    | .flowEntry :: r => .ok ⟨r, by simp⟩
    | _ => .error .badStructure

mutual

/-- Reads a node. -/
def node (handles : Handles) (place : Place) (anchors : Anchors) (ts : List Token) :
    Read Node ts :=
  match ts with
  | .alias name :: r =>
      match anchors.lookup name with
      | some n => .ok (n, anchors, ⟨r, by simp⟩)
      | none => .error .badAnchor
  | ts =>
      let (properties, ⟨r, hr⟩) := takeProperties ts
      match tagName handles properties.tag with
      | .error e => .error e
      | .ok name =>
          let anchor := properties.anchor
          if anchor.any fun a => (anchors.lookup a).isSome then .error .badAnchor
          else
            let seqTag := collectionTag name .seq
            let mapTag := collectionTag name .map
            let inSequence := bind anchor (sequence seqTag []) anchors
            let inMapping := bind anchor (mapping mapTag []) anchors
            match _h : r with
            | .scalar text plain :: r' =>
                let n := scalar (scalarTag name text plain) text
                .ok (n, bind anchor n anchors, ⟨r', by simp only [List.length_cons] at hr; omega⟩)
            | .flowSequenceStart :: r' =>
                match flowItems handles true inSequence r' with
                | .error e => .error e
                | .ok (xs, anchors, ⟨after, ha⟩) =>
                    let n := sequence seqTag xs
                    .ok (n, bind anchor n anchors,
                      ⟨after, by simp only [List.length_cons] at hr; omega⟩)
            | .flowMappingStart :: r' =>
                match flowPairs handles true inMapping r' with
                | .error e => .error e
                | .ok (ps, anchors, ⟨after, ha⟩) =>
                    let n := mapping mapTag ps
                    .ok (n, bind anchor n anchors,
                      ⟨after, by simp only [List.length_cons] at hr; omega⟩)
            | .blockSequenceStart :: r' =>
                if !place.block then .error .badStructure
                else
                  match blockItems handles inSequence r' with
                  | .error e => .error e
                  | .ok (xs, anchors, ⟨after, ha⟩) =>
                      let n := sequence seqTag xs
                      .ok (n, bind anchor n anchors,
                        ⟨after, by simp only [List.length_cons] at hr; omega⟩)
            | .blockMappingStart :: r' =>
                if !place.block then .error .badStructure
                else
                  match blockPairs handles inMapping r' with
                  | .error e => .error e
                  | .ok (ps, anchors, ⟨after, ha⟩) =>
                      let n := mapping mapTag ps
                      .ok (n, bind anchor n anchors,
                        ⟨after, by simp only [List.length_cons] at hr; omega⟩)
            | .blockEntry :: r' =>
                if place.indentless then
                  match indentlessItem handles inSequence r' with
                  | .error e => .error e
                  | .ok (xs, anchors, ⟨after, ha⟩) =>
                      let n := sequence seqTag xs
                      .ok (n, bind anchor n anchors,
                        ⟨after, by simp only [List.length_cons] at hr; omega⟩)
                else empty name anchor anchors ts r
            | _ => empty name anchor anchors ts r
termination_by (ts.length, 2)
decreasing_by
  all_goals
    subst _h
    simp only [List.length_cons] at hr
    omega

/-- Reads a node that may be left out. -/
def optional (handles : Handles) (place : Place) (stops : Stops) (anchors : Anchors)
    (ts : List Token) : Except Fault (Node × Anchors × NotMore ts) :=
  match ts with
  | [] => .error .badStructure
  | t :: r =>
      if stops t then .ok (absent, anchors, ⟨t :: r, Nat.le_refl _⟩)
      else
        match node handles place anchors (t :: r) with
        | .error e => .error e
        | .ok (n, anchors, ⟨after, ha⟩) => .ok (n, anchors, ⟨after, Nat.le_of_lt ha⟩)
termination_by (ts.length, 3)

/-- Reads the items of a block sequence up to its end. -/
def blockItems (handles : Handles) (anchors : Anchors) (ts : List Token) : Read (List Node) ts :=
  match ts with
  | .blockEnd :: r => .ok ([], anchors, ⟨r, by simp⟩)
  | .blockEntry :: r =>
      match optional handles ⟨true, false⟩ stopsItem anchors r with
      | .error e => .error e
      | .ok (x, anchors, ⟨r₁, h₁⟩) =>
          match blockItems handles anchors r₁ with
          | .error e => .error e
          | .ok (xs, anchors, ⟨after, ha⟩) =>
              .ok (x :: xs, anchors, ⟨after, by simp only [List.length_cons]; omega⟩)
  | _ => .error .badStructure
termination_by (ts.length, 4)
decreasing_by
  all_goals
    simp only [List.length_cons]
    omega

/-- Reads an item of a sequence without indentation after its indicator, and the items after
it. -/
def indentlessItem (handles : Handles) (anchors : Anchors) (ts : List Token) :
    Except Fault (List Node × Anchors × NotMore ts) :=
  match optional handles ⟨true, false⟩ stopsIndentlessItem anchors ts with
  | .error e => .error e
  | .ok (x, anchors, ⟨r₁, h₁⟩) =>
      match _h : r₁ with
      | .blockEntry :: r₂ =>
          match indentlessItem handles anchors r₂ with
          | .error e => .error e
          | .ok (xs, anchors, ⟨after, ha⟩) =>
              .ok (x :: xs, anchors,
                ⟨after, by simp only [List.length_cons] at h₁; omega⟩)
      | r₂ => .ok ([x], anchors, ⟨r₂, h₁⟩)
termination_by (ts.length, 4)
decreasing_by
  · exact Prod.Lex.right _ (by decide)
  · subst _h
    simp only [List.length_cons] at h₁
    omega

/-- Reads the pairs of a block mapping up to its end. -/
def blockPairs (handles : Handles) (anchors : Anchors) (ts : List Token) :
    Read (List (Node × Node)) ts :=
  match ts with
  | .blockEnd :: r => .ok ([], anchors, ⟨r, by simp⟩)
  | .key :: r =>
      match optional handles ⟨true, true⟩ stopsPart anchors r with
      | .error e => .error e
      | .ok (k, anchors, ⟨r₁, h₁⟩) =>
          match _h : r₁ with
          | .value :: r₂ =>
              match optional handles ⟨true, true⟩ stopsPart anchors r₂ with
              | .error e => .error e
              | .ok (v, anchors, ⟨r₃, h₃⟩) =>
                  match blockPairs handles anchors r₃ with
                  | .error e => .error e
                  | .ok (ps, anchors, ⟨after, ha⟩) =>
                      .ok ((k, v) :: ps, anchors,
                        ⟨after, by simp only [List.length_cons] at *; omega⟩)
          | r₂ =>
              match blockPairs handles anchors r₂ with
              | .error e => .error e
              | .ok (ps, anchors, ⟨after, ha⟩) =>
                  .ok ((k, absent) :: ps, anchors,
                    ⟨after, by simp only [List.length_cons] at *; omega⟩)
  | _ => .error .badStructure
termination_by (ts.length, 4)
decreasing_by
  all_goals
    try simp only [List.length_cons] at *
    omega

/-- Reads the items of a flow sequence up to its end.  An item may be a mapping of one pair. -/
def flowItems (handles : Handles) (first : Bool) (anchors : Anchors) (ts : List Token) :
    Read (List Node) ts :=
  match ts with
  | .flowSequenceEnd :: r => .ok ([], anchors, ⟨r, by simp⟩)
  | ts =>
      match afterEntry first ts with
      | .error e => .error e
      | .ok ⟨r, hr⟩ =>
          match _h : r with
          | .flowSequenceEnd :: r₁ =>
              .ok ([], anchors, ⟨r₁, by simp only [List.length_cons] at hr; omega⟩)
          | .key :: r₁ =>
              match flowPair handles .flowSequenceEnd anchors r₁ with
              | .error e => .error e
              | .ok (pair, anchors, ⟨r₂, h₂⟩) =>
                  match flowItems handles false anchors r₂ with
                  | .error e => .error e
                  | .ok (xs, anchors, ⟨after, ha⟩) =>
                      .ok (mapping .map [pair] :: xs, anchors,
                        ⟨after, by simp only [List.length_cons] at hr; omega⟩)
          | r₁ =>
              match node handles ⟨false, false⟩ anchors r₁ with
              | .error e => .error e
              | .ok (x, anchors, ⟨r₂, h₂⟩) =>
                  match flowItems handles false anchors r₂ with
                  | .error e => .error e
                  | .ok (xs, anchors, ⟨after, ha⟩) =>
                      .ok (x :: xs, anchors, ⟨after, by omega⟩)
termination_by (ts.length, 4)
decreasing_by
  all_goals
    subst _h
    try simp only [List.length_cons] at hr
    omega

/-- Reads a pair of a flow collection after its key indicator. -/
def flowPair (handles : Handles) (closing : Token) (anchors : Anchors) (ts : List Token) :
    Except Fault ((Node × Node) × Anchors × NotMore ts) :=
  match optional handles ⟨false, false⟩ (stopsFlowKey closing) anchors ts with
  | .error e => .error e
  | .ok (k, anchors, ⟨r₁, h₁⟩) =>
      match _h : r₁ with
      | .value :: r₂ =>
          match optional handles ⟨false, false⟩ (stopsFlowValue closing) anchors r₂ with
          | .error e => .error e
          | .ok (v, anchors, ⟨r₃, h₃⟩) =>
              .ok ((k, v), anchors, ⟨r₃, by simp only [List.length_cons] at h₁; omega⟩)
      | r₂ => .ok ((k, absent), anchors, ⟨r₂, h₁⟩)
termination_by (ts.length, 4)
decreasing_by
  · exact Prod.Lex.right _ (by decide)
  · subst _h
    simp only [List.length_cons] at h₁
    omega

/-- Reads the pairs of a flow mapping up to its end.  A key may stand alone. -/
def flowPairs (handles : Handles) (first : Bool) (anchors : Anchors) (ts : List Token) :
    Read (List (Node × Node)) ts :=
  match ts with
  | .flowMappingEnd :: r => .ok ([], anchors, ⟨r, by simp⟩)
  | ts =>
      match afterEntry first ts with
      | .error e => .error e
      | .ok ⟨r, hr⟩ =>
          match _h : r with
          | .flowMappingEnd :: r₁ =>
              .ok ([], anchors, ⟨r₁, by simp only [List.length_cons] at hr; omega⟩)
          | .key :: r₁ =>
              match flowPair handles .flowMappingEnd anchors r₁ with
              | .error e => .error e
              | .ok (pair, anchors, ⟨r₂, h₂⟩) =>
                  match flowPairs handles false anchors r₂ with
                  | .error e => .error e
                  | .ok (ps, anchors, ⟨after, ha⟩) =>
                      .ok (pair :: ps, anchors,
                        ⟨after, by simp only [List.length_cons] at hr; omega⟩)
          | r₁ =>
              match node handles ⟨false, false⟩ anchors r₁ with
              | .error e => .error e
              | .ok (k, anchors, ⟨r₂, h₂⟩) =>
                  match flowPairs handles false anchors r₂ with
                  | .error e => .error e
                  | .ok (ps, anchors, ⟨after, ha⟩) =>
                      .ok ((k, absent) :: ps, anchors, ⟨after, by omega⟩)
termination_by (ts.length, 4)
decreasing_by
  all_goals
    subst _h
    try simp only [List.length_cons] at hr
    omega

end

/-! ### Documents -/

def usualHandles : Handles := [("!", "!"), ("!!", Tag.usual)]

/-- Reads the directives at the head of a document. -/
def headOf (versioned : Bool) (handles : Handles) :
    List Token → Except Fault (Handles × List Token)
  | .directive (.version major) :: r =>
      if versioned || major != 1 then .error .badStructure else headOf true handles r
  | .directive (.tagHandle handle start) :: r =>
      if (handles.lookup handle).isSome then .error .badStructure
      else headOf versioned ((handle, start) :: handles) r
  | .directive .other :: r => headOf versioned handles r
  | .documentStart :: r => .ok (handles ++ usualHandles, r)
  | _ => .error .badStructure

/-- Reads the content of a document after its mark. -/
def content (handles : Handles) (ts : List Token) : Except Fault (Node × List Token) :=
  match ts with
  | [] => .ok (absent, [])
  | t :: _ =>
      match t with
      | .directive _ | .documentStart | .documentEnd => .ok (absent, ts)
      | _ => (node handles ⟨true, false⟩ [] ts).map fun (n, _, r) => (n, r.1)

/-- Makes sure that only marks for the end of the document are left. -/
def onlyEnds (ts : List Token) : Except Fault Unit :=
  if ts.all (· = .documentEnd) then .ok () else .error .moreDocuments

/-- Reads the one document of a text, if there is one. -/
def ofTokens? (ts : List Token) : Except Fault (Option Node) := do
  match ts with
  | [] => return none
  | t :: _ =>
      let (n, rest) ← match t with
        | .directive _ | .documentStart => do
            let (handles, r) ← headOf false [] ts
            content handles r
        | _ => do
            let (n, _, r) ← node usualHandles ⟨true, false⟩ [] ts
            pure (n, r.1)
      onlyEnds rest
      return some n

end Node

end HostPrereqs.Yaml
