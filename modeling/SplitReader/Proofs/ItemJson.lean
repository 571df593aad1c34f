import SplitReader.Proofs.JsonWritten
import SplitReader.Work.Run

/-! # Reading written work items

A source is written as an object that begins with its kind. The reader meets the kind first, keeps
the values of the other members as trees, and looks at these behind the closing brace. So a source
comes back if the trees of its members are understood (`SourceSpec.written_of_ofParts`), and a work
item comes back from its text if its source does (`WorkItem.ofBytes_encode`).
-/

set_option autoImplicit false

namespace SplitReader

open Json

namespace SourceSpec

/-! ## Kinds and members -/

theorem takes_kind {kind : String} (h : kindNames.contains kind = true) :
    Takes readKind [.text (.ok kind)] kind := by
  refine ⟨⟨_, [], rfl, trivial⟩, fun rest => ?_⟩
  have hread : Format.string.read ([.text (.ok kind)] ++ rest) = .ok (kind, rest) := rfl
  simp only [readKind, hread, bind, Except.bind, h, if_true]
  rfl

theorem written_kind {kind : String} (h : kindNames.contains kind = true) :
    Written readKind (Writer.text kind) kind :=
  written_of_takes (Token.cuts_text kind) (takes_kind h)

theorem readField_kind {kind : String} {tokens rest : List Token}
    (h : readKind tokens = .ok (kind, rest)) (others : List (String × Value)) :
    readField "kind" ⟨none, others⟩ (.colon :: tokens) = .ok (⟨some kind, others⟩, rest) := by
  simp only [readField, field_of_read "kind" h, bind, Except.bind]
  rfl

theorem readField_other {name : String} {v : Value} {tokens rest : List Token}
    (hname : name ≠ "kind") (h : Value.read memberDepth tokens = .ok (v, rest)) (seen : Fields) :
    readField name seen (.colon :: tokens) =
      .ok ({ seen with others := (name, v) :: seen.others }, rest) := by
  unfold readField
  split
  · exact absurd rfl hname
  · simp only [Reader.afterColon, h, bind, Except.bind]
    rfl

/-- The members behind the kind are kept, the last one first. -/
theorem membersWritten_others {members : List (String × String)} {values : List (String × Value)}
    (h : List.Forall₂ (fun m v => m.1 = v.1 ∧ v.1 ≠ "kind" ∧
      Written (Value.read memberDepth) m.2 v.2) members values) (seen : Fields) :
    MembersWritten readField seen members
      { seen with others := values.reverse ++ seen.others } := by
  induction h generalizing seen with
  | nil => exact .nil seen
  | @cons m v members values hmember _ ih =>
      obtain ⟨key, text⟩ := m
      obtain ⟨name, value⟩ := v
      obtain ⟨hkey, hname, hwritten⟩ := hmember
      simp only at hkey hname hwritten
      subst hkey
      have hothers := ih { seen with others := (key, value) :: seen.others }
      rw [List.reverse_cons, List.append_assoc]
      exact .cons hwritten (fun _ _ hread => readField_other hname hread seen) hothers

/-- A source is taken where its kind and its other parts are, if these are understood. -/
theorem takes_of_ofParts {kind : String} {parts : Parts} {source : SourceSpec} {ts : List Token}
    (h : Takes readParts ts (kind, parts)) (hsource : ofParts kind parts = .ok source) :
    Takes readJson ts source := by
  refine ⟨h.opening, fun rest => ?_⟩
  simp only [readJson, h.read_append, hsource, bind, Except.bind]
  rfl

/-- **A source is read back** if the trees of its members are understood. -/
theorem written_of_ofParts {kind : String} {members : List (String × String)}
    {values : List (String × Value)} {source : SourceSpec}
    (hkind : kindNames.contains kind = true)
    (h : List.Forall₂ (fun m v => m.1 = v.1 ∧ v.1 ≠ "kind" ∧
      Written (Value.read memberDepth) m.2 v.2) members values)
    (hsource : ofParts kind (.members values) = .ok source) :
    Written readJson (Writer.object (("kind", Writer.text kind) :: members)) source := by
  have hmembers : MembersWritten readField {} (("kind", Writer.text kind) :: members)
      { kind := some kind, others := values.reverse ++ [] } :=
    .cons (written_kind hkind) (fun _ _ hread => readField_kind hread [])
      (membersWritten_others h ⟨some kind, []⟩)
  have hparts : Written readParts (Writer.object (("kind", Writer.text kind) :: members))
      (kind, .members values) := by
    refine written_structured hmembers fun tokens rest hread => ?_
    simp only [hread, bind, Except.bind, Reader.required, List.append_nil, List.reverse_reverse]
    rfl
  obtain ⟨ts, hcuts, htakes⟩ := hparts.exists_takes
  exact written_of_takes hcuts (takes_of_ofParts htakes hsource)

/-! ## In-memory sources -/

theorem textsOf_texts (ss : List String) : textsOf (.array (ss.map Value.text)) = .ok ss := by
  have htexts : (ss.map Value.text).mapM textOf = Except.ok ss := by
    induction ss with
    | nil => rfl
    | cons s ss ih =>
        rw [List.map_cons, List.mapM_cons, ih]
        rfl
  exact htexts

theorem encodingOf_name (encoding : RecordEncoding) :
    encodingOf (.text encoding.name) = .ok encoding := by
  cases encoding <;> rfl

theorem written_records (records : List String) :
    Written (Value.read memberDepth) (Format.string.list.write records)
      (.array (records.map Value.text)) := by
  refine written_array ?_
  induction records with
  | nil => exact .nil
  | cons s records ih => exact .cons (written_text _ s) ih

theorem ofParts_inMemory (records : List String) (encoding : RecordEncoding) {low high : Value}
    {start stop : Option Int64} (hlow : signedOf low = .ok start)
    (hhigh : signedOf high = .ok stop) :
    ofParts inMemoryKind (.members [("records", .array (records.map Value.text)),
      ("encoding", .text encoding.name), ("start_index", low), ("end_index", high)]) =
        .ok (.inMemory records encoding start stop) := by
  simp only [ofParts, if_true, memoryOfMembers, List.foldlM_cons, List.foldlM_nil, keepMemoryField,
    keep, textsOf_texts, encodingOf_name, hlow, hhigh, bind, Except.bind, Except.map, pure,
    Except.pure, Reader.required]
  rfl

/-- **An in-memory source is read back** if its bounds are. -/
theorem written_inMemory (records : List String) (encoding : RecordEncoding) {low high : Value}
    {start stop : Option Int64}
    (hstart : Written (Value.read memberDepth) (Format.int64.optional.write start) low)
    (hstop : Written (Value.read memberDepth) (Format.int64.optional.write stop) high)
    (hlow : signedOf low = .ok start) (hhigh : signedOf high = .ok stop) :
    Written readJson (inMemory records encoding start stop).writeJson
      (.inMemory records encoding start stop) := by
  refine written_of_ofParts (by decide) ?_ (ofParts_inMemory records encoding hlow hhigh)
  exact .cons ⟨rfl, show "records" ≠ "kind" by decide, written_records records⟩ <|
    .cons ⟨rfl, show "encoding" ≠ "kind" by decide, written_text _ _⟩ <|
      .cons ⟨rfl, show "start_index" ≠ "kind" by decide, hstart⟩ <|
        .cons ⟨rfl, show "end_index" ≠ "kind" by decide, hstop⟩ .nil

theorem written_inMemory_unbounded (records : List String) (encoding : RecordEncoding) :
    Written readJson (inMemory records encoding none none).writeJson
      (.inMemory records encoding none none) :=
  written_inMemory records encoding (written_null _) (written_null _) rfl rfl

end SourceSpec

/-! ## Work items -/

namespace WorkItem

theorem readField_id {id : String} {tokens rest : List Token}
    (h : Format.string.read tokens = .ok (id, rest)) (source : Option SourceSpec) :
    readField "id" (none, source) (.colon :: tokens) = .ok ((some id, source), rest) := by
  simp only [readField, field_of_read "id" h, bind, Except.bind]
  rfl

theorem readField_source {source : SourceSpec} {tokens rest : List Token}
    (h : SourceSpec.readJson tokens = .ok (source, rest)) (id : Option String) :
    readField "source" (id, none) (.colon :: tokens) = .ok ((id, some source), rest) := by
  simp only [readField, field_of_read "source" h, bind, Except.bind]
  rfl

theorem written_of_source {w : WorkItem}
    (h : Written SourceSpec.readJson w.source.writeJson w.source) :
    Written WorkItem.readJson w.writeJson w := by
  have hmembers : MembersWritten readField (none, none)
      [("id", Writer.text w.id), ("source", w.source.writeJson)] (some w.id, some w.source) :=
    .cons (written_string w.id) (fun _ _ hread => readField_id hread none) <|
      .cons h (fun _ _ hread => readField_source hread (some w.id)) (.nil _)
  refine written_structured hmembers fun tokens rest hread => ?_
  simp only [hread, bind, Except.bind, Reader.required]
  rfl

/-- A file that holds a text is read like the text. -/
theorem ofBytes_of_decode {w : WorkItem} {text : String}
    (h : json.decode (Utf8.encode text) = .ok w) : ofBytes (Utf8.encode text) = .ok w := by
  rw [ofBytes, Utf8.decode_encode]
  simp only [h]
  rfl

/-- **A work item comes back from the bytes of its text** if its source is read back. -/
theorem ofBytes_encode {w : WorkItem}
    (h : Written SourceSpec.readJson w.source.writeJson w.source) :
    ofBytes (Utf8.encode w.writeJson) = .ok w :=
  ofBytes_of_decode (written_of_source h).run

end WorkItem

end SplitReader
