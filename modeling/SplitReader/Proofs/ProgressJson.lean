import SplitReader.Codec
import SplitReader.Proofs.JsonNumber
import SplitReader.Wire.Json

/-! # Positions, events and progresses come back from their JSON

A position is an object of one member that names its kind, or the bare name of the end; either is
read back, whatever number or text it carries. An event is read back from its two members. A
progress writes its position also when there is none and leaves out a share or a time that it has
not; a share that is not finite is written as no value, and is gone when the text is read again. So
a progress comes back from its text without a share that no text can hold
(`Codec.decode_encode_json`).
-/

set_option autoImplicit false

namespace SplitReader

namespace Json

variable {α σ : Type}

/-! ## Words and optional values -/

theorem written_uint64 (n : UInt64) : Written Format.uint64.read (Format.uint64.write n) n := by
  refine ⟨_, [], Token.cuts_natural n.toNat_lt, trivial, fun rest => ?_⟩
  simp [Format.uint64, Reader.single, Reader.naturalBelow, n.toNat_lt, Except.map]

theorem written_uint32 (n : UInt32) : Written Format.uint32.read (Format.uint32.write n) n := by
  have hword : n.toNat < UInt64.size := Nat.lt_trans n.toNat_lt (by decide)
  refine ⟨_, [], Token.cuts_natural hword, trivial, fun rest => ?_⟩
  simp [Format.uint32, Reader.single, Reader.naturalBelow, n.toNat_lt, Except.map]

theorem written_none (read : Reader α) : Written (Reader.optional read) Writer.null none :=
  ⟨.null, [], Token.cuts_null, trivial, fun _ => rfl⟩

/-- A value whose reader takes neither the word for no value nor one that begins like it is read
back as an optional one. -/
theorem written_some {read : Reader α} {s : String} {a : α} (h : Written read s a)
    (hnull : ∀ rest, ∃ e, read (.null :: rest) = .error e)
    (hbroken : ∀ fault rest, ∃ e, read (.brokenNull fault :: rest) = .error e) :
    Written (Reader.optional read) s (some a) := by
  obtain ⟨t, ts, hcuts, hopening, hread⟩ := h.tokens
  refine ⟨t, ts, hcuts, hopening, fun rest => ?_⟩
  have hthere := hread rest
  rw [List.cons_append] at hthere ⊢
  cases t with
  | null =>
      obtain ⟨e, he⟩ := hnull (ts ++ rest)
      rw [he] at hthere
      cases hthere
  | brokenNull fault =>
      obtain ⟨e, he⟩ := hbroken fault (ts ++ rest)
      rw [he] at hthere
      cases hthere
  | _ => simp only [Reader.optional, hthere, Except.map]

theorem MembersWritten.append {step : String → σ → Reader σ} {s s' s'' : σ}
    {members others : List (String × String)} (h : MembersWritten step s members s')
    (h' : MembersWritten step s' others s'') : MembersWritten step s (members ++ others) s'' := by
  induction h with
  | nil => exact h'
  | cons written takes _ ih => exact .cons written takes (ih h')

end Json

open Json

/-! ## Positions -/

namespace Position

/-- An object of one member is read back if the payload of its kind is. -/
theorem written_object {β : Type} {read : Reader β} {kind value : String} {b : β} {p : Position}
    (hkind : kindNames.contains kind = true) (h : Written read value b)
    (hpayload : ∀ tokens rest, read tokens = .ok (b, rest) →
      readPayload kind tokens = .ok (p, rest)) :
    Written readJson (Writer.object [(kind, value)]) p := by
  obtain ⟨ts, hcuts, htakes⟩ := h.exists_takes
  have hobject : Token.Cuts (Writer.object [(kind, value)]) (Token.objectTokens [(kind, ts)]) :=
    Token.cuts_object (.cons (Token.cuts_member hcuts) .nil)
  refine written_of_takes hobject ⟨⟨_, _, rfl, trivial⟩, fun rest => ?_⟩
  have htokens : Token.objectTokens [(kind, ts)] ++ rest =
      .beginObject :: .text (.ok kind) :: .colon :: (ts ++ .endObject :: rest) := by
    simp [Token.objectTokens, Token.memberTokens, Token.listed, Token.more]
  have hvalue := hpayload _ _ (htakes.read_append (.endObject :: rest))
  have hname : kindOf kind = .ok kind := if_pos hkind
  rw [htokens]
  simp only [readJson, Reader.key, Except.map, hname, Reader.afterColon, hvalue, Reader.endObject,
    bind, Except.bind]
  rfl

/-- **Every position is read back.** -/
theorem written_json (p : Position) : Written Position.json.read (Position.json.write p) p := by
  cases p with
  | recordIndex n =>
      refine written_object (by decide) (written_uint64 n) fun tokens rest h => ?_
      simp only [readPayload, h, Except.map]
  | byteOffset n =>
      refine written_object (by decide) (written_uint64 n) fun tokens rest h => ?_
      simp only [readPayload, h, Except.map]
  | key s =>
      refine written_object (by decide) (written_string s) fun tokens rest h => ?_
      simp only [readPayload, h, Except.map]
  | shufflePosition s =>
      refine written_object (by decide) (written_string s) fun tokens rest h => ?_
      simp only [readPayload, h, Except.map]
  | endOfRange => exact ⟨_, [], Token.cuts_text "end", trivial, fun _ => rfl⟩

end Position

/-! ## Lengths of time and events -/

namespace Duration

theorem readField_secs {secs : UInt64} {tokens rest : List Token}
    (h : Format.uint64.read tokens = .ok (secs, rest)) (nanos : Option UInt32) :
    readField "secs" (none, nanos) (.colon :: tokens) = .ok ((some secs, nanos), rest) := by
  simp only [readField, field_of_read "secs" h, bind, Except.bind]
  rfl

theorem readField_nanos {nanos : UInt32} {tokens rest : List Token}
    (h : Format.uint32.read tokens = .ok (nanos, rest)) (secs : Option UInt64) :
    readField "nanos" (secs, none) (.colon :: tokens) = .ok ((secs, some nanos), rest) := by
  simp only [readField, field_of_read "nanos" h, bind, Except.bind]
  rfl

/-- **Every length of time is read back**: its nanoseconds do not make up a second, so none are
carried over. -/
theorem written_json (d : Duration) : Written Duration.json.read (Duration.json.write d) d := by
  have hmembers : MembersWritten readField (none, none)
      [("secs", Format.uint64.write d.secs), ("nanos", Format.uint32.write d.nanos)]
      (some d.secs, some d.nanos) :=
    .cons (written_uint64 d.secs) (fun _ _ hread => readField_secs hread none) <|
      .cons (written_uint32 d.nanos) (fun _ _ hread => readField_nanos hread (some d.secs)) (.nil _)
  refine written_structured hmembers fun tokens rest hread => ?_
  simp only [hread, bind, Except.bind, Reader.required, ofRead, ofParts?_self]
  rfl

end Duration

namespace Event

theorem readField_id {id : UInt32} {tokens rest : List Token}
    (h : Format.uint32.read tokens = .ok (id, rest)) (name : Option String) :
    readField "id" (none, name) (.colon :: tokens) = .ok ((some id, name), rest) := by
  simp only [readField, field_of_read "id" h, bind, Except.bind]
  rfl

theorem readField_name {name : String} {tokens rest : List Token}
    (h : Format.string.read tokens = .ok (name, rest)) (id : Option UInt32) :
    readField "name" (id, none) (.colon :: tokens) = .ok ((id, some name), rest) := by
  simp only [readField, field_of_read "name" h, bind, Except.bind]
  rfl

/-- **Every event is read back.** -/
theorem written_json (e : Event) : Written Event.json.read (Event.json.write e) e := by
  have hmembers : MembersWritten readField (none, none)
      [("id", Format.uint32.write e.id), ("name", Format.string.write e.name)]
      (some e.id, some e.name) :=
    .cons (written_uint32 e.id) (fun _ _ hread => readField_id hread none) <|
      .cons (written_string e.name) (fun _ _ hread => readField_name hread (some e.id)) (.nil _)
  refine written_structured hmembers fun tokens rest hread => ?_
  simp only [hread, bind, Except.bind, Reader.required]
  rfl

end Event

/-! ## Progresses -/

namespace Progress

/-- A position is read back also as an optional one: none begins with the word for no value. -/
theorem written_position (position : Option Position) :
    Written Position.json.optional.read (Position.json.optional.write position) position := by
  cases position with
  | none => exact written_none _
  | some p =>
      refine written_some p.written_json (fun rest => ⟨.malformed, rfl⟩)
        (fun fault rest => ⟨.malformed, rfl⟩)

/-- The members of a progress: what is not there is left out, and a share that is not finite is
written as no value. -/
theorem membersWritten {p : Progress} (h : ∀ x ∈ p.percentComplete, x.isFinite = false) :
    MembersWritten readField {}
      ([("position", Position.json.optional.write p.position)] ++
        (p.percentComplete.toList.map fun x => ("percent_complete", Format.binary32.write x)) ++
        (p.remainingTime.toList.map fun d => ("remaining_time", Duration.json.write d)))
      ⟨some p.position, p.percentComplete.map fun _ => none, p.remainingTime.map some⟩ := by
  obtain ⟨position, percent, time⟩ := p
  have hposition : MembersWritten readField {}
      [("position", Position.json.optional.write position)] ⟨some position, none, none⟩ := by
    refine .cons (written_position position) (fun tokens rest h => ?_) (.nil _)
    simp only [readField, field_of_read "position" h, bind, Except.bind]
    rfl
  have hpercent : MembersWritten readField ⟨some position, none, none⟩
      (percent.toList.map fun x => ("percent_complete", Format.binary32.write x))
      ⟨some position, percent.map fun _ => none, none⟩ := by
    cases percent with
    | none => exact .nil _
    | some x =>
        have hnull : Format.binary32.write x = Writer.null := by
          simp only [Format.binary32, h x rfl, Bool.false_eq_true, if_false]
        rw [Option.toList_some, List.map_singleton, hnull]
        refine .cons (written_none Format.binary32.read) (fun tokens rest h => ?_) (.nil _)
        have hread : Format.binary32.optional.read tokens = .ok (none, rest) := h
        simp only [readField, field_of_read "percent_complete" hread, bind, Except.bind]
        rfl
  have htime : MembersWritten readField ⟨some position, percent.map fun _ => none, none⟩
      (time.toList.map fun d => ("remaining_time", Duration.json.write d))
      ⟨some position, percent.map fun _ => none, time.map some⟩ := by
    cases time with
    | none => exact .nil _
    | some d =>
        have hsome : Written Duration.json.optional.read (Duration.json.write d) (some d) :=
          written_some d.written_json (fun rest => ⟨.mismatch, rfl⟩) (fun fault rest => ⟨_, rfl⟩)
        refine .cons hsome (fun tokens rest h => ?_) (.nil _)
        simp only [readField, field_of_read "remaining_time" h, bind, Except.bind]
        rfl
  exact (hposition.append hpercent).append htime

/-- **A progress is read back** without a share that is not finite. -/
theorem written_json {p : Progress} (h : ∀ x ∈ p.percentComplete, x.isFinite = false) :
    Written Progress.json.read (Progress.json.write p) { p with percentComplete := none } := by
  refine written_structured (membersWritten h) fun tokens rest hread => ?_
  have hpercent : (p.percentComplete.map fun _ => (none : Option Binary32)).join = none := by
    cases p.percentComplete <;> rfl
  have htime : (p.remainingTime.map some).join = p.remainingTime := by
    cases p.remainingTime <;> rfl
  simp only [hread, hpercent, htime, bind, Except.bind]
  rfl

end Progress

/-! ## Codecs -/

namespace Codec

/-- A written value comes back through the codec of its format. -/
theorem decode_json_of_written {α : Type} {f : Format α} {a b : α}
    (h : Written f.read (f.write a) b) : (json f).decode ((json f).encode a) = .ok b := by
  have hrun : f.decode (f.encode a) = .ok b := h.run
  simp only [json, hrun]
  rfl

/-- **Positions and events come back from their JSON, and so does a progress that has no finite
share**: what is missing in it is left out of its text, or written as no value like a share that is
not finite, and what comes back has no share. -/
theorem decode_encode_json :
    (∀ p, (json Position.json).decode ((json Position.json).encode p) = .ok p) ∧
    (∀ e, (json Event.json).decode ((json Event.json).encode e) = .ok e) ∧
    ∀ p : Progress, (∀ x ∈ p.percentComplete, x.isFinite = false) →
      (json Progress.json).decode ((json Progress.json).encode p) =
        .ok { p with percentComplete := none } :=
  ⟨fun p => decode_json_of_written p.written_json,
    fun e => decode_json_of_written e.written_json,
    fun _ h => decode_json_of_written (Progress.written_json h)⟩

/-- An infinite share is gone, and the time beside it is still there. -/
theorem decode_encode_json_infinite :
    let p : Progress := ⟨some (.key "a\"b"), some ⟨0x7F800000⟩, some ⟨90, 5, by decide⟩⟩
    (∀ x ∈ p.percentComplete, x.isFinite = false) ∧
      (json Progress.json).decode ((json Progress.json).encode p) =
        .ok ⟨some (.key "a\"b"), none, some ⟨90, 5, by decide⟩⟩ := by
  intro p
  have hinfinite : ∀ x ∈ p.percentComplete, x.isFinite = false := by
    rintro x ⟨⟩
    decide
  obtain ⟨-, -, hprogress⟩ := decode_encode_json
  exact ⟨hinfinite, hprogress p hinfinite⟩

end Codec

end SplitReader
