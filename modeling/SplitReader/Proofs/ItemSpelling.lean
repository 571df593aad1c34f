import SplitReader.Proofs.ItemRoundTrip
import SplitReader.Proofs.JsonMembers

/-! # Work items in any spelling

The members of a work item and of its source may stand in any order. So what an object says is told
by the values at each name: a work item has one identifier and one source, the source has one kind,
and the fields of that kind are there as often as they have to be (`IsGivenBy`). All other members,
also those of the other kind, are of no consequence as long as their values are plain.

Every field settles from the values at its name alone. Hence the members of the source settle its
fields in whatever order they are kept, and those of the work item in whatever order they are read;
and since any spelling of the text is cut into the same tokens, the work item is the one that the
object gives (`WorkItem.decode_of_isGivenBy`).
-/

set_option autoImplicit false

namespace SplitReader

open Json

/-! ## Sources -/

namespace SourceSpec

def signedValue (n : Int64) : Value :=
  if n.toInt < 0 then .number (.negative n) else .number (.natural (.ofNat n.toInt.toNat))

/-- The values at the name of a bound: its number, or the word for none or nothing if there is
none. -/
inductive GivesBound {α : Type} (value : α → Value) : Option α → List Value → Prop where
  | number (n : α) : GivesBound value (some n) [value n]
  /-- There is none, and the object says so. -/
  | null : GivesBound value none [.null]
  | missing : GivesBound value none []

/-- The values at the name of an encoding: its own name, or nothing for UTF-8. -/
inductive GivesEncoding : RecordEncoding → List Value → Prop where
  | named (encoding : RecordEncoding) : GivesEncoding encoding [.text encoding.name]
  | missing : GivesEncoding .utf8 []

/-- The members of an object give a source, in whatever order, and others that are plain. -/
inductive IsGivenBy : SourceSpec → List (String × Value) → Prop where
  | inMemory {records : List String} {encoding : RecordEncoding} {start stop : Option Int64}
      {ms : List (String × Value)} (hkind : valuesAt "kind" ms = [.text inMemoryKind])
      (hrecords : valuesAt "records" ms = [.array (records.map .text)])
      (hencoding : GivesEncoding encoding (valuesAt "encoding" ms))
      (hstart : GivesBound signedValue start (valuesAt "start_index" ms))
      (hstop : GivesBound signedValue stop (valuesAt "end_index" ms))
      (hothers : ∀ m ∈ ms,
        m.1 ∉ ["kind", "records", "encoding", "start_index", "end_index"] → m.2.IsPlain) :
      IsGivenBy (.inMemory records encoding start stop) ms
  | textFile {path : String} {start stop : Option UInt64} {ms : List (String × Value)}
      (hkind : valuesAt "kind" ms = [.text textFileKind])
      (hpath : valuesAt "path" ms = [.text path])
      (hstart : GivesBound (fun n => .number (.natural n)) start (valuesAt "start_offset" ms))
      (hstop : GivesBound (fun n => .number (.natural n)) stop (valuesAt "end_offset" ms))
      (hothers : ∀ m ∈ ms,
        m.1 ∉ ["kind", "path", "start_offset", "end_offset"] → m.2.IsPlain) :
      IsGivenBy (.textFile path start stop) ms

/-! ### Members of a source -/

section Settling

variable {α : Type} {name : String} {v : Value} {ms : List (String × Value)}
  {seen final : Option α}

theorem exists_keep_eq {read : Value → Except Json.Error α}
    (h : Settles (fun v a => read v = .ok a) (valuesAt name ((name, v) :: ms)) seen final) :
    ∃ seen', keep name read seen v = .ok seen' ∧
      Settles (fun v a => read v = .ok a) (valuesAt name ms) seen' final := by
  obtain ⟨rfl, a, hread, hothers⟩ := h.of_cons
  refine ⟨some a, ?_, hothers⟩
  simp only [keep, hread, Except.map]

theorem GivesBound.exists_settles {value : α → Value} {read : Value → Except Json.Error (Option α)}
    {bound : Option α} {vs : List Value} (h : GivesBound value bound vs)
    (hnumber : ∀ n, read (value n) = .ok (some n)) (hnull : read .null = .ok none) :
    ∃ final, Settles (fun v a => read v = .ok a) vs none final ∧ final.join = bound := by
  cases h with
  | number n => exact ⟨_, .read (hnumber n), rfl⟩
  | null => exact ⟨_, .read hnull, rfl⟩
  | missing => exact ⟨_, .kept none, rfl⟩

end Settling

theorem GivesEncoding.exists_settles {encoding : RecordEncoding} {vs : List Value}
    (h : GivesEncoding encoding vs) :
    ∃ final, Settles (fun v a => encodingOf v = .ok a) vs none final ∧
      final.getD .utf8 = encoding := by
  cases h with
  | named => exact ⟨_, .read (encodingOf_name encoding), rfl⟩
  | missing => exact ⟨_, .kept none, rfl⟩

/-- **The fields of an in-memory source settle by their names alone.** -/
theorem foldlM_keepMemoryField {ms : List (String × Value)} {seen final : MemoryFields}
    (hrecords : Settles (fun v a => textsOf v = .ok a) (valuesAt "records" ms)
      seen.records final.records)
    (hencoding : Settles (fun v a => encodingOf v = .ok a) (valuesAt "encoding" ms)
      seen.encoding final.encoding)
    (hstart : Settles (fun v a => signedOf v = .ok a) (valuesAt "start_index" ms)
      seen.start final.start)
    (hstop : Settles (fun v a => signedOf v = .ok a) (valuesAt "end_index" ms)
      seen.stop final.stop) :
    ms.foldlM keepMemoryField seen = .ok final := by
  induction ms generalizing seen with
  | nil =>
      obtain ⟨records, encoding, start, stop⟩ := seen
      obtain rfl := hrecords.eq_of_nil
      obtain rfl := hencoding.eq_of_nil
      obtain rfl := hstart.eq_of_nil
      obtain rfl := hstop.eq_of_nil
      rfl
  | cons m ms ih =>
      obtain ⟨name, v⟩ := m
      rw [List.foldlM_cons]
      -- The field of that name settles by the member first, and the others do not see it.
      unfold keepMemoryField
      split
      next hname =>
        obtain rfl : name = "records" := hname
        obtain ⟨records, hkeep, hrecords⟩ := exists_keep_eq hrecords
        simp only [hkeep, Except.map, bind, Except.bind]
        exact ih hrecords (hencoding.of_cons_of_ne (by decide)) (hstart.of_cons_of_ne (by decide))
          (hstop.of_cons_of_ne (by decide))
      next hname =>
        obtain rfl : name = "encoding" := hname
        obtain ⟨encoding, hkeep, hencoding⟩ := exists_keep_eq hencoding
        simp only [hkeep, Except.map, bind, Except.bind]
        exact ih (hrecords.of_cons_of_ne (by decide)) hencoding (hstart.of_cons_of_ne (by decide))
          (hstop.of_cons_of_ne (by decide))
      next hname =>
        obtain rfl : name = "start_index" := hname
        obtain ⟨start, hkeep, hstart⟩ := exists_keep_eq hstart
        simp only [hkeep, Except.map, bind, Except.bind]
        exact ih (hrecords.of_cons_of_ne (by decide)) (hencoding.of_cons_of_ne (by decide)) hstart
          (hstop.of_cons_of_ne (by decide))
      next hname =>
        obtain rfl : name = "end_index" := hname
        obtain ⟨stop, hkeep, hstop⟩ := exists_keep_eq hstop
        simp only [hkeep, Except.map, bind, Except.bind]
        exact ih (hrecords.of_cons_of_ne (by decide)) (hencoding.of_cons_of_ne (by decide))
          (hstart.of_cons_of_ne (by decide)) hstop
      next hnotRecords hnotEncoding hnotStart hnotStop =>
        exact ih (hrecords.of_cons_of_ne hnotRecords) (hencoding.of_cons_of_ne hnotEncoding)
          (hstart.of_cons_of_ne hnotStart) (hstop.of_cons_of_ne hnotStop)

/-- **The fields of a text file source settle by their names alone.** -/
theorem foldlM_keepTextField {ms : List (String × Value)} {seen final : TextFields}
    (hpath : Settles (fun v a => textOf v = .ok a) (valuesAt "path" ms) seen.path final.path)
    (hstart : Settles (fun v a => unsignedOf v = .ok a) (valuesAt "start_offset" ms)
      seen.start final.start)
    (hstop : Settles (fun v a => unsignedOf v = .ok a) (valuesAt "end_offset" ms)
      seen.stop final.stop) :
    ms.foldlM keepTextField seen = .ok final := by
  induction ms generalizing seen with
  | nil =>
      obtain ⟨path, start, stop⟩ := seen
      obtain rfl := hpath.eq_of_nil
      obtain rfl := hstart.eq_of_nil
      obtain rfl := hstop.eq_of_nil
      rfl
  | cons m ms ih =>
      obtain ⟨name, v⟩ := m
      rw [List.foldlM_cons]
      unfold keepTextField
      split
      next hname =>
        obtain rfl : name = "path" := hname
        obtain ⟨path, hkeep, hpath⟩ := exists_keep_eq hpath
        simp only [hkeep, Except.map, bind, Except.bind]
        exact ih hpath (hstart.of_cons_of_ne (by decide)) (hstop.of_cons_of_ne (by decide))
      next hname =>
        obtain rfl : name = "start_offset" := hname
        obtain ⟨start, hkeep, hstart⟩ := exists_keep_eq hstart
        simp only [hkeep, Except.map, bind, Except.bind]
        exact ih (hpath.of_cons_of_ne (by decide)) hstart (hstop.of_cons_of_ne (by decide))
      next hname =>
        obtain rfl : name = "end_offset" := hname
        obtain ⟨stop, hkeep, hstop⟩ := exists_keep_eq hstop
        simp only [hkeep, Except.map, bind, Except.bind]
        exact ih (hpath.of_cons_of_ne (by decide)) (hstart.of_cons_of_ne (by decide)) hstop
      next hnotPath hnotStart hnotStop =>
        exact ih (hpath.of_cons_of_ne hnotPath) (hstart.of_cons_of_ne hnotStart)
          (hstop.of_cons_of_ne hnotStop)

/-! ### Reading a source -/

theorem signedOf_signedValue (n : Int64) : signedOf (signedValue n) = .ok (some n) := by
  unfold signedValue
  split
  · rfl
  · next hneg => exact signedOf_natural (by omega)

/-- **The kind of a source settles by its name alone**, and the other members are kept, the last one
first. -/
theorem membersTaken_readField {ms : List (String × Value)} {seen : Fields} {kind : Option String}
    (hkind : Settles (fun v a => Takes readKind v.tokens a) (valuesAt "kind" ms) seen.kind kind)
    (hothers : ∀ m ∈ ms, m.1 ≠ "kind" → Takes (Value.read memberDepth) m.2.tokens m.2) :
    MembersTaken readField seen (Value.membersTokens ms)
      ⟨kind, (ms.filter (·.1 ≠ "kind")).reverse ++ seen.others⟩ := by
  induction ms generalizing seen with
  | nil =>
      obtain rfl := hkind.eq_of_nil
      exact .nil seen
  | cons m ms ih =>
      obtain ⟨name, v⟩ := m
      have hothers' := fun m hm => hothers m (List.mem_cons_of_mem _ hm)
      by_cases hname : name = "kind"
      · subst hname
        obtain ⟨seenKind, hfield, hkind⟩ := hkind.exists_field_eq
        have hlater := @ih ⟨seenKind, seen.others⟩ hkind hothers'
        rw [List.filter_cons_of_neg (by simp)]
        refine .cons (fun rest => ?_) hlater
        simp only [readField, hfield, bind, Except.bind]
        rfl
      · have htakes := hothers _ List.mem_cons_self hname
        have hlater := @ih { seen with others := (name, v) :: seen.others }
          (hkind.of_cons_of_ne hname) hothers'
        rw [List.filter_cons_of_pos (by simpa using hname), List.reverse_cons, List.append_assoc]
        exact .cons (fun rest => readField_other hname (htakes.read_append rest) seen) hlater

/-- A source is read from its kind and its other members, whatever their order. -/
theorem takes_readJson {ms : List (String × Value)} {kind : String} {source : SourceSpec}
    (hkind : valuesAt "kind" ms = [.text kind]) (hname : kindNames.contains kind = true)
    (hothers : ∀ m ∈ ms, m.1 ≠ "kind" → Takes (Value.read memberDepth) m.2.tokens m.2)
    (hsource : ofParts kind (.members (ms.filter (·.1 ≠ "kind"))) = .ok source) :
    Takes readJson (Value.object ms).tokens source := by
  have hsettles : Settles (fun v a => Takes readKind v.tokens a) (valuesAt "kind" ms)
      none (some kind) := by
    rw [hkind]
    exact .read (takes_kind hname)
  have hparts : Takes readParts (Value.object ms).tokens
      (kind, .members (ms.filter (·.1 ≠ "kind"))) := by
    have hmembers := @membersTaken_readField ms {} (some kind) hsettles hothers
    refine takes_structured hmembers fun tokens rest hread => ?_
    simp only [hread, bind, Except.bind, Reader.required, List.append_nil, List.reverse_reverse]
    rfl
  exact takes_of_ofParts hparts hsource

theorem GivesBound.isPlain {α : Type} {value : α → Value} {bound : Option α} {vs : List Value}
    (h : GivesBound value bound vs) (hvalue : ∀ n, (value n).IsPlain) : ∀ v ∈ vs, v.IsPlain := by
  cases h with
  | number n => simpa using hvalue n
  | null => simpa using Value.IsPlain.null
  | missing => simp

theorem GivesEncoding.isPlain {encoding : RecordEncoding} {vs : List Value}
    (h : GivesEncoding encoding vs) : ∀ v ∈ vs, v.IsPlain := by
  cases h with
  | named => simpa using Value.IsPlain.text _
  | missing => simp

theorem isPlain_signedValue (n : Int64) : (signedValue n).IsPlain := by
  unfold signedValue
  split
  · exact .negative n
  · exact .natural _

/-- All members but the kind are kept as the trees that they are: the records are texts, and every
other value is plain. -/
theorem IsGivenBy.takes_member {source : SourceSpec} {ms : List (String × Value)}
    (h : source.IsGivenBy ms) :
    ∀ m ∈ ms, m.1 ≠ "kind" → Takes (Value.read memberDepth) m.2.tokens m.2 := by
  rintro ⟨name, v⟩ hm hname
  have hv := mem_valuesAt hm
  cases h with
  | @inMemory records encoding start stop _ hkind hrecords hencoding hstart hstop hothers =>
      by_cases hlisted : name = "records"
      · rw [hlisted, hrecords, List.mem_singleton] at hv
        rw [hv]
        exact Value.takes_texts _ records
      · refine Value.IsPlain.takes ?_ memberDepth
        by_cases hknown : name ∈ ["kind", "records", "encoding", "start_index", "end_index"]
        · simp only [List.mem_cons, hname, hlisted, List.not_mem_nil, or_false, false_or]
            at hknown
          rcases hknown with rfl | rfl | rfl
          · exact hencoding.isPlain v hv
          · exact hstart.isPlain isPlain_signedValue v hv
          · exact hstop.isPlain isPlain_signedValue v hv
        · exact hothers _ hm hknown
  | @textFile path start stop _ hkind hpath hstart hstop hothers =>
      refine Value.IsPlain.takes ?_ memberDepth
      by_cases hknown : name ∈ ["kind", "path", "start_offset", "end_offset"]
      · simp only [List.mem_cons, hname, List.not_mem_nil, or_false, false_or] at hknown
        rcases hknown with rfl | rfl | rfl
        · rw [hpath, List.mem_singleton] at hv
          rw [hv]
          exact .text path
        · exact hstart.isPlain .natural v hv
        · exact hstop.isPlain .natural v hv
      · exact hothers _ hm hknown

/-- The object names a kind, and the other members are understood for that kind. -/
theorem IsGivenBy.exists_ofParts_eq {source : SourceSpec} {ms : List (String × Value)}
    (h : source.IsGivenBy ms) :
    ∃ kind, valuesAt "kind" ms = [.text kind] ∧ kindNames.contains kind = true ∧
      ofParts kind (.members (ms.filter (·.1 ≠ "kind"))) = .ok source := by
  cases h with
  | @inMemory records encoding start stop _ hkind hrecords hencoding hstart hstop _ =>
      refine ⟨inMemoryKind, hkind, by decide, ?_⟩
      obtain ⟨e, hencoding, he⟩ := hencoding.exists_settles
      obtain ⟨low, hstart, hlow⟩ := hstart.exists_settles signedOf_signedValue rfl
      obtain ⟨high, hstop, hhigh⟩ := hstop.exists_settles signedOf_signedValue rfl
      have hfold : (ms.filter (·.1 ≠ "kind")).foldlM keepMemoryField {} =
          .ok ⟨some records, e, low, high⟩ := by
        apply foldlM_keepMemoryField <;> rw [valuesAt_filter_ne (by decide)]
        · rw [hrecords]
          exact .read (textsOf_texts records)
        · exact hencoding
        · exact hstart
        · exact hstop
      simp only [ofParts, if_true, memoryOfMembers, hfold, bind, Except.bind, Reader.required, he,
        hlow, hhigh]
      rfl
  | @textFile path start stop _ hkind hpath hstart hstop _ =>
      refine ⟨textFileKind, hkind, by decide, ?_⟩
      have hnumber : ∀ n, unsignedOf (.number (.natural n)) = .ok (some n) := fun _ => rfl
      obtain ⟨low, hstart, hlow⟩ := hstart.exists_settles hnumber rfl
      obtain ⟨high, hstop, hhigh⟩ := hstop.exists_settles hnumber rfl
      have hfold : (ms.filter (·.1 ≠ "kind")).foldlM keepTextField {} =
          .ok ⟨some path, low, high⟩ := by
        apply foldlM_keepTextField <;> rw [valuesAt_filter_ne (by decide)]
        · rw [hpath]
          exact .read rfl
        · exact hstart
        · exact hstop
      have hother : textFileKind ≠ inMemoryKind := by decide
      simp only [ofParts, if_neg hother, textOfMembers, hfold, bind, Except.bind, Reader.required,
        hlow, hhigh]
      rfl

/-- **A source is read from any object that gives it.** -/
theorem IsGivenBy.takes {source : SourceSpec} {ms : List (String × Value)}
    (h : source.IsGivenBy ms) : Takes readJson (Value.object ms).tokens source := by
  obtain ⟨kind, hkind, hname, hsource⟩ := h.exists_ofParts_eq
  exact takes_readJson hkind hname h.takes_member hsource

end SourceSpec

/-! ## Work items -/

namespace WorkItem

/-- The members of an object give a work item, in whatever order, and others that are plain. -/
structure IsGivenBy (w : WorkItem) (ms : List (String × Value)) : Prop where
  id : valuesAt "id" ms = [.text w.id]
  source : ∃ parts, valuesAt "source" ms = [.object parts] ∧ w.source.IsGivenBy parts
  others : ∀ m ∈ ms, m.1 ∉ ["id", "source"] → m.2.IsPlain

/-- **The fields of a work item settle by their names alone.** -/
theorem membersTaken_readField {ms : List (String × Value)}
    {seen final : Option String × Option SourceSpec}
    (hid : Settles (fun v a => Takes Format.string.read v.tokens a) (valuesAt "id" ms)
      seen.1 final.1)
    (hsource : Settles (fun v a => Takes SourceSpec.readJson v.tokens a) (valuesAt "source" ms)
      seen.2 final.2)
    (hothers : ∀ m ∈ ms, m.1 ∉ ["id", "source"] → m.2.IsPlain) :
    MembersTaken readField seen (Value.membersTokens ms) final := by
  induction ms generalizing seen with
  | nil =>
      have hseen : seen = final := Prod.ext hid.eq_of_nil hsource.eq_of_nil
      rw [hseen]
      exact .nil final
  | cons m ms ih =>
      obtain ⟨name, v⟩ := m
      have hothers' := fun m hm => hothers m (List.mem_cons_of_mem _ hm)
      by_cases hnameId : name = "id"
      · subst hnameId
        obtain ⟨seenId, hfield, hid⟩ := hid.exists_field_eq
        have hlater := @ih (seenId, seen.2) hid (hsource.of_cons_of_ne (by decide)) hothers'
        refine .cons (fun rest => ?_) hlater
        simp only [readField, hfield, bind, Except.bind]
        rfl
      · by_cases hnameSource : name = "source"
        · subst hnameSource
          obtain ⟨seenSource, hfield, hsource⟩ := hsource.exists_field_eq
          have hlater := @ih (seen.1, seenSource) (hid.of_cons_of_ne (by decide)) hsource hothers'
          refine .cons (fun rest => ?_) hlater
          simp only [readField, hfield, bind, Except.bind]
          rfl
        · -- A member of another name is skipped, whatever it holds.
          have hplain := hothers _ List.mem_cons_self (by simp [hnameId, hnameSource])
          refine .cons (fun rest => ?_)
            (ih (hid.of_cons_of_ne hnameId) (hsource.of_cons_of_ne hnameSource) hothers')
          unfold readField
          split
          · exact absurd rfl hnameId
          · exact absurd rfl hnameSource
          · simp only [Reader.ignored, Reader.afterColon, hplain.skipValue, bind, Except.bind]
            rfl

/-- **A work item is read from any object that gives it.** -/
theorem IsGivenBy.takes {w : WorkItem} {ms : List (String × Value)} (h : w.IsGivenBy ms) :
    Takes readJson (Value.object ms).tokens w := by
  obtain ⟨hid, ⟨parts, hparts, hsource⟩, hothers⟩ := h
  have htaken : MembersTaken readField (none, none) (Value.membersTokens ms)
      (some w.id, some w.source) := by
    refine membersTaken_readField ?_ ?_ hothers
    · rw [hid]
      exact .read ⟨⟨_, [], rfl, trivial⟩, fun rest => rfl⟩
    · rw [hparts]
      exact .read hsource.takes
  refine takes_structured htaken fun tokens rest hread => ?_
  simp only [hread, bind, Except.bind, Reader.required]
  rfl

/-- **Parsing a work item does not depend on how its object is written**: every text that spells the
tokens of an object that gives the work item is read as that work item, by the reader of the format
and as the content of a file. -/
theorem decode_of_isGivenBy {w : WorkItem} {ms : List (String × Value)} {text : String}
    (h : w.IsGivenBy ms) (htext : Token.Spells (Value.object ms).tokens text.toList) :
    json.decode (Utf8.encode text) = .ok w ∧ ofBytes (Utf8.encode text) = .ok w := by
  have hread : json.decode (Utf8.encode text) = .ok w :=
    h.takes.run (Token.ofBytes_of_spells htext)
  exact ⟨hread, ofBytes_of_decode hread⟩

/-- Members that give a work item: the kind of the source stands last, the start is left out, the
end is said to be missing, and there is a member of the other kind. -/
def shuffledMembers : List (String × Value) :=
  [("source", .object [("end_offset", .null), ("path", .text "a/b"),
      ("records", .number (.negative (-7))), ("kind", .text "text_file")]),
    ("id", .text "w")]

/-- A text of these members, with blanks and an escape. -/
def shuffledText : String :=
  "\x7b\"source\": \x7b\"end_offset\":null,\"path\":\"\\u0061/b\",\"records\":-7\n," ++
    "\"kind\":\"text_file\"\x7d,\"id\":\"w\"\x7d"

/-- The lines of a file without bounds are named by that text. -/
theorem decode_shuffledText :
    IsGivenBy ⟨"w", .textFile "a/b" none none⟩ shuffledMembers ∧
      Token.Spells (Value.object shuffledMembers).tokens shuffledText.toList ∧
      json.decode (Utf8.encode shuffledText) = .ok ⟨"w", .textFile "a/b" none none⟩ ∧
      ofBytes (Utf8.encode shuffledText) = .ok ⟨"w", .textFile "a/b" none none⟩ := by
  have hgiven : IsGivenBy ⟨"w", .textFile "a/b" none none⟩ shuffledMembers := by
    refine ⟨rfl, ⟨_, rfl, .textFile rfl rfl .missing .null ?_⟩, ?_⟩
    · rintro m hm -
      simp only [List.mem_cons, List.not_mem_nil, or_false] at hm
      rcases hm with rfl | rfl | rfl | rfl
      exacts [.null, .text _, .negative _, .text _]
    · intro m hm hname
      simp only [shuffledMembers, List.mem_cons, List.not_mem_nil, or_false] at hm
      rcases hm with rfl | rfl
      · exact absurd (by decide) hname
      · exact .text _
  have hspells : Token.Spells (Value.object shuffledMembers).tokens shuffledText.toList := by
    have hwritten : ∀ s : String, Token.SpellsToken (.text (.ok s)) _ :=
      fun s => .text (Token.spellsChars_escape s.toList)
    have hnumber : Token.SpellsHex 'a'.toNat ['0', '0', '6', '1'] :=
      .digits (a := 0) (b := 0) (c := 6) (d := 1) rfl rfl rfl rfl
    have hpath : Token.SpellsChars "a/b".toList ['\\', 'u', '0', '0', '6', '1', '/', 'b'] :=
      .cons (.number hnumber) (Token.spellsChars_escape ['/', 'b'])
    have hseven : Token.SpellsNumber (.negative (-7)) ['-', '7'] := by
      have hdigits : Decimal.naturalChars 7 = ['7'] := by
        rw [Decimal.naturalChars, Decimal.digits]
        rfl
      rw [← hdigits]
      exact .negative (n := -7) (by decide)
    have hends : ∀ cs, Token.EndsNumber ('\n' :: cs) := by
      rintro cs c ⟨⟩
      exact Or.inl (Or.inr (Or.inl rfl))
    have htokens : Token.Spells _ _ :=
      .token .beginObject <| .token (hwritten "source") <| .token .colon <|
      .blank (Or.inl rfl) <| .token .beginObject <|
      .token (hwritten "end_offset") <| .token .colon <| .token .null <| .token .comma <|
      .token (hwritten "path") <| .token .colon <| .token (.text hpath) <| .token .comma <|
      .token (hwritten "records") <| .token .colon <| .number hseven (hends _) <|
      .blank (Or.inr (Or.inl rfl)) <| .token .comma <|
      .token (hwritten "kind") <| .token .colon <| .token (hwritten "text_file") <|
      .token .endObject <| .token .comma <|
      .token (hwritten "id") <| .token .colon <| .token (hwritten "w") <| .token .endObject .nil
    convert htokens using 1
    · rfl
    · decide
  exact ⟨hgiven, hspells, decode_of_isGivenBy hgiven hspells⟩

end WorkItem

end SplitReader
