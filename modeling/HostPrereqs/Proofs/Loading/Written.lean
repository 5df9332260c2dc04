import HostPrereqs.Loading.Basic
import HostPrereqs.Proofs.Json.RoundTrip
import HostPrereqs.Proofs.Output.Characters
import HostPrereqs.Proofs.Requirements.Slots

/-!
# Loading — texts and data in files

What is read from a file is the value of the text that it holds (`readData_of_holds`).

Data that were written as JSON into a file are read back from it (`readData_of_holdsJson`): the
bytes of a text are decoded to the text, no line end has to be unified, as what is written has
none but line feeds, and line feeds at the end of the file do not matter.

The data that requirements are shown as are such data (`textTree_toValue`), as no name stands twice
at one level.
-/

namespace HostPrereqs

/-! ### The text of a file -/

namespace Files

variable {files : Files} {path text : String} {content : ByteArray}

theorem fromUTF8?_toUTF8 (text : String) : String.fromUTF8? text.toUTF8 = some text := by
  rw [String.fromUTF8?, String.toUTF8_eq_toByteArray, dif_pos text.isValidUTF8]
  rfl

/-- Where no line end begins with a carriage return, all of them are line feeds already. -/
theorem unifyLines_of_not_mem {s : List Char} (h : '\r' ∉ s) : unifyLines s = s := by
  induction s with
  | nil => rfl
  | cons c s ih =>
      rw [List.mem_cons, not_or] at h
      obtain ⟨hc, hs⟩ := h
      rw [unifyLines.eq_3 c s (fun _ hcr => absurd hcr.symm hc) (fun hcr => hc hcr.symm), ih hs]

theorem fromUTF8?_eq_some : String.fromUTF8? content = some text ↔ text.toUTF8 = content := by
  constructor
  · intro h
    unfold String.fromUTF8? at h
    split at h
    · cases h
      rfl
    · cases h
  · rintro rfl
    exact fromUTF8?_toUTF8 text

/-- There is a text at a path: the bytes there encode it, up to the ends of its lines. -/
def Holds (files : Files) (path text : String) : Prop :=
  ∃ written : String, files.readBytes (Path.normal path) = .ok written.toUTF8 ∧
    text = String.ofList (unifyLines written.toList)

theorem holds_iff : files.Holds path text ↔
    ∃ content, files.readBytes (Path.normal path) = .ok content ∧ textOf? content = some text := by
  constructor
  · rintro ⟨written, hbytes, rfl⟩
    exact ⟨_, hbytes, by rw [textOf?, fromUTF8?_toUTF8, Option.map_some]⟩
  · rintro ⟨content, hbytes, htext⟩
    obtain ⟨written, hwritten, rfl⟩ := Option.map_eq_some_iff.1 htext
    exact ⟨written, by rw [hbytes, fromUTF8?_eq_some.1 hwritten], rfl⟩

/-- A text without carriage returns is held as it is. -/
theorem holds_of_not_mem (h : '\r' ∉ text.toList)
    (hbytes : files.readBytes (Path.normal path) = .ok text.toUTF8) : files.Holds path text :=
  ⟨text, hbytes, by rw [unifyLines_of_not_mem h, String.ofList_toList]⟩

/-- A JSON file holds a text, with any number of line feeds after it. -/
structure HoldsJson (files : Files) (path text : String) : Prop where
  suffix : Path.suffix (Path.normal path) = ".json"
  bytes : ∃ ends, files.readBytes (Path.normal path) =
    .ok (text ++ String.ofList (List.replicate ends '\n')).toUTF8

end Files

namespace Loading

variable {files : Files} {path text : String} {v : Value}

/-- What is read from a file is the value of its text. -/
theorem readData_of_holds (h : files.Holds path text) :
    readData files path = readText (Path.normal path) text := by
  obtain ⟨content, hbytes, htext⟩ := Files.holds_iff.1 h
  rw [readData, hbytes]
  dsimp only [Except.mapError, bind, Except.bind]
  rw [htext]

/-- Data that are written into a JSON file are read back from it. -/
theorem readData_of_holdsJson (hv : v.TextTree) (hbasic : IsBasic (Json.indented v).toList)
    (h : files.HoldsJson path (Json.indented v)) : readData files path = .ok v := by
  obtain ⟨hsuffix, ends, hbytes⟩ := h
  have hreturn : '\r' ∉ (Json.indented v ++ String.ofList (List.replicate ends '\n')).toList := by
    rw [String.toList_append, String.toList_ofList, List.mem_append, not_or]
    refine ⟨fun hmem => absurd (hbasic _ hmem) (by decide), fun hmem => ?_⟩
    exact absurd (List.eq_of_mem_replicate hmem) (by decide)
  have hread : Json.read (Json.indented v ++ String.ofList (List.replicate ends '\n')) = .ok v :=
    Json.read_indented hv fun x hx => by rw [List.eq_of_mem_replicate hx]; rfl
  rw [readData_of_holds (Files.holds_of_not_mem hreturn hbytes), readText, if_pos hsuffix, hread]
  rfl

end Loading

/-! ### Shown requirements -/

/-- A valid table is shown as a mapping of different names. -/
theorem Table.Valid.textTree_record {α : Type} {P : α → Prop} {t : Table α} (h : t.Valid P)
    {shown : α → Value} (hshown : ∀ v, P v → (shown v).TextTree) :
    (Value.record (t.map fun (k, v) => (k, shown v))).TextTree := by
  refine .record ?_ fun f hf => ?_
  · rw [List.map_map]
    exact h.nodup
  · obtain ⟨⟨k, v⟩, hmem, rfl⟩ := List.mem_map.1 hf
    exact hshown v (h.values (k, v) hmem)

namespace Requirements

variable {r : Requirements}

/-- Tidy requirements are shown as mappings of different names, down to the ranges. -/
theorem Tidy.textTree_toValue (h : r.Tidy) : r.toValue.TextTree :=
  h.textTree_record fun _ hrelations => hrelations.2.textTree_record fun _ hmodules =>
    hmodules.textTree_record fun range _ => .str range

/-- Tidy requirements that were written into a JSON file are read back from it as data. -/
theorem Tidy.readData (h : r.Tidy) {files : Files} {path : String}
    (hfile : files.HoldsJson path (OutputFormat.json.render r.toValue)) :
    Loading.readData files path = .ok r.toValue :=
  Loading.readData_of_holdsJson h.textTree_toValue
    (OutputFormat.json.isBasic_render r.textual_toValue) hfile

end Requirements

end HostPrereqs
