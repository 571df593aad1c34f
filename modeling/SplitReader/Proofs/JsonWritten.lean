import Mathlib.Data.List.Forall2
import SplitReader.Json.Format
import SplitReader.Json.Value
import SplitReader.Proofs.JsonText

/-! # Reading written JSON

A written value is cut into its tokens wherever it stands (`Cuts`), and a reader takes it off the
front of them (`Takes`). Both are said together of a reader, a text and a value (`Written`), for
every text behind the value that may follow one: its end, or a blank, a comma or a closing bracket.
Arrays of written values are written values again, and so are objects, where each member takes the
reader a step further (`MembersWritten`, and `MembersTaken` for what it meets of them). A whole text
of a written value gives the value back (`Written.run`).
-/

set_option autoImplicit false

namespace SplitReader.Json

namespace Token

/-! ## Cuts -/

/-- Bytes that may follow a value: none, or a blank, or a byte that separates or closes. -/
def IsBoundary (rest : List UInt8) : Prop :=
  ∀ b ∈ rest.head?, isBlank b = true ∨ b = 0x2C ∨ b = 0x5D ∨ b = 0x7D

/-- A text is cut into some tokens when it stands before such bytes. -/
def Cuts (s : String) (ts : List Token) : Prop :=
  ∀ rest, IsBoundary rest → ofBytes (Utf8.encode s ++ rest) = ts ++ ofBytes rest

/-- The tokens of values that follow other ones: each has a comma before it. -/
def more (tss : List (List Token)) : List Token := tss.flatMap (Token.comma :: ·)

/-- The tokens of values with commas between them. -/
def listed : List (List Token) → List Token
  | [] => []
  | ts :: tss => ts ++ more tss

def arrayTokens (tss : List (List Token)) : List Token :=
  .beginArray :: (listed tss ++ [.endArray])

def memberTokens (key : String) (ts : List Token) : List Token := .text (.ok key) :: .colon :: ts

def objectTokens (members : List (String × List Token)) : List Token :=
  .beginObject :: (listed (members.map fun (key, ts) => memberTokens key ts) ++ [.endObject])

/-- Every value that follows other ones has a token of its own: its comma. -/
theorem length_le_length_more (tss : List (List Token)) : tss.length ≤ (more tss).length := by
  induction tss with
  | nil => exact Nat.le_refl 0
  | cons ts tss ih =>
      simp only [more, List.flatMap_cons, List.length_append, List.length_cons] at ih ⊢
      omega

theorem isBoundary_cons {b : UInt8}
    (h : isBlank b = true ∨ b = 0x2C ∨ b = 0x5D ∨ b = 0x7D) (rest : List UInt8) :
    IsBoundary (b :: rest) := by
  rintro b' ⟨⟩
  exact h

theorem ofBytes_cons {b : UInt8} (h : isBlank b = false) (rest : List UInt8) :
    ofBytes (b :: rest) = (scan b rest).1 :: ofBytes (scan b rest).2 := by
  rw [ofBytes, h]
  rfl

@[simp] theorem ofBytes_beginObject (rest : List UInt8) :
    ofBytes (0x7B :: rest) = .beginObject :: ofBytes rest := ofBytes_cons rfl rest

@[simp] theorem ofBytes_endObject (rest : List UInt8) :
    ofBytes (0x7D :: rest) = .endObject :: ofBytes rest := ofBytes_cons rfl rest

@[simp] theorem ofBytes_beginArray (rest : List UInt8) :
    ofBytes (0x5B :: rest) = .beginArray :: ofBytes rest := ofBytes_cons rfl rest

@[simp] theorem ofBytes_endArray (rest : List UInt8) :
    ofBytes (0x5D :: rest) = .endArray :: ofBytes rest := ofBytes_cons rfl rest

@[simp] theorem ofBytes_comma (rest : List UInt8) :
    ofBytes (0x2C :: rest) = .comma :: ofBytes rest := ofBytes_cons rfl rest

@[simp] theorem ofBytes_colon (rest : List UInt8) :
    ofBytes (0x3A :: rest) = .colon :: ofBytes rest := ofBytes_cons rfl rest

theorem ofBytes_spelled {s : String} {xs : List Char} (h : SpellsChars s.toList xs)
    (rest : List UInt8) :
    ofBytes (0x22 :: (Utf8.encodeChars xs ++ 0x22 :: rest)) = .text (.ok s) :: ofBytes rest := by
  have hscan : scan 0x22 (Utf8.encodeChars xs ++ 0x22 :: rest) = (.text (.ok s), rest) := by
    show ofTextScan (scanText _) = _
    rw [scanText_spelled h]
    show (Token.text (contentText (Utf8.encode s)), rest) = _
    rw [contentText, Utf8.decode_encode]
  rw [ofBytes_cons rfl, hscan]

/-- A written text is one token, whatever follows it. -/
theorem ofBytes_text (s : String) (rest : List UInt8) :
    ofBytes (Utf8.encode (Writer.text s) ++ rest) = .text (.ok s) :: ofBytes rest := by
  have hbytes : Utf8.encode (Writer.text s) ++ rest =
      0x22 :: (Utf8.encodeChars (s.toList.flatMap Writer.escape) ++ 0x22 :: rest) := by
    rw [Writer.text, Utf8.encode, String.toList_ofList, List.cons_append, Utf8.encodeChars_cons,
      Utf8.encodeChars_append, List.append_assoc, List.append_assoc]
    rfl
  rw [hbytes]
  exact ofBytes_spelled (spellsChars_escape s.toList) rest

theorem cuts_text (s : String) : Cuts (Writer.text s) [.text (.ok s)] :=
  fun rest _ => ofBytes_text s rest

theorem cuts_null : Cuts Writer.null [.null] := by
  intro rest _
  rw [show Utf8.encode Writer.null = [0x6E, 0x75, 0x6C, 0x6C] by decide]
  exact ofBytes_cons rfl _

/-! ## Lists of values -/

def moreBytes (ss : List String) : List UInt8 := ss.flatMap fun s => 0x2C :: Utf8.encode s

theorem encode_separated_cons (s : String) (ss : List String) :
    Utf8.encode (Writer.separated (s :: ss)) = Utf8.encode s ++ moreBytes ss := by
  induction ss generalizing s with
  | nil => exact (List.append_nil _).symm
  | cons s' ss ih =>
      rw [Writer.separated, Utf8.encode_append, Utf8.encode_append, ih, moreBytes, moreBytes,
        List.flatMap_cons, List.append_assoc]
      · rfl
      · rintro ⟨⟩

theorem ofBytes_moreBytes {ss : List String} {tss : List (List Token)}
    (h : List.Forall₂ Cuts ss tss) {rest : List UInt8} (hrest : IsBoundary rest) :
    IsBoundary (moreBytes ss ++ rest) ∧
      ofBytes (moreBytes ss ++ rest) = more tss ++ ofBytes rest := by
  induction h with
  | nil => exact ⟨hrest, rfl⟩
  | @cons s ts ss tss hcut _ ih =>
      obtain ⟨hbound, hmore⟩ := ih
      rw [moreBytes, List.flatMap_cons, List.cons_append, List.cons_append, List.append_assoc]
      refine ⟨isBoundary_cons (by decide) _, ?_⟩
      rw [ofBytes_comma]
      show Token.comma :: ofBytes (Utf8.encode s ++ (moreBytes ss ++ rest)) = _
      rw [hcut _ hbound, hmore]
      simp [more]

theorem cuts_separated {ss : List String} {tss : List (List Token)}
    (h : List.Forall₂ Cuts ss tss) : Cuts (Writer.separated ss) (listed tss) := by
  intro rest hrest
  cases h with
  | nil => rfl
  | cons hcut htail =>
      obtain ⟨hbound, hmore⟩ := ofBytes_moreBytes htail hrest
      rw [encode_separated_cons, List.append_assoc, hcut _ hbound, hmore, listed,
        List.append_assoc]

theorem cuts_array {ss : List String} {tss : List (List Token)} (h : List.Forall₂ Cuts ss tss) :
    Cuts (Writer.array ss) (arrayTokens tss) := by
  intro rest _
  have hbytes : Utf8.encode (Writer.array ss) ++ rest =
      0x5B :: (Utf8.encode (Writer.separated ss) ++ 0x5D :: rest) := by
    rw [Writer.array, Utf8.encode_append, Utf8.encode_append, List.append_assoc, List.append_assoc]
    rfl
  rw [hbytes, ofBytes_beginArray, cuts_separated h _ (isBoundary_cons (by decide) _),
    ofBytes_endArray]
  simp [arrayTokens]

theorem cuts_member {key value : String} {ts : List Token} (h : Cuts value ts) :
    Cuts (Writer.member key value) (memberTokens key ts) := by
  intro rest hrest
  have hbytes : Utf8.encode (Writer.member key value) ++ rest =
      Utf8.encode (Writer.text key) ++ 0x3A :: (Utf8.encode value ++ rest) := by
    rw [Writer.member, Utf8.encode_append, Utf8.encode_append, List.append_assoc, List.append_assoc]
    rfl
  rw [hbytes, ofBytes_text, ofBytes_colon, h _ hrest]
  rfl

theorem cuts_object {members : List (String × String)} {taken : List (String × List Token)}
    (h : List.Forall₂ Cuts (members.map fun (key, value) => Writer.member key value)
      (taken.map fun (key, ts) => memberTokens key ts)) :
    Cuts (Writer.object members) (objectTokens taken) := by
  intro rest _
  have hbytes : Utf8.encode (Writer.object members) ++ rest =
      0x7B :: (Utf8.encode
        (Writer.separated (members.map fun (key, value) => Writer.member key value)) ++
          0x7D :: rest) := by
    rw [Writer.object, Utf8.encode_append, Utf8.encode_append, List.append_assoc,
      List.append_assoc]
    rfl
  rw [hbytes, ofBytes_beginObject, cuts_separated h _ (isBoundary_cons (by decide) _),
    ofBytes_endObject]
  simp [objectTokens]

/-- The token can begin a value: it neither ends an array nor separates. -/
def IsOpening : Token → Prop
  | endArray | comma => False
  | _ => True

end Token

open Token

/-! ## Written values -/

variable {α σ : Type}

/-- A reader takes a value off the front of some tokens, whatever follows them, and the first of
them can begin a value. -/
structure Takes (read : Reader α) (ts : List Token) (a : α) : Prop where
  opening : ∃ t others, ts = t :: others ∧ t.IsOpening
  read_append : ∀ rest, read (ts ++ rest) = .ok (a, rest)

/-- A text is a written value: it is cut into tokens of which a reader takes the value, whatever
follows. -/
structure Written (read : Reader α) (s : String) (a : α) : Prop where
  tokens : ∃ t ts, Cuts s (t :: ts) ∧ t.IsOpening ∧ ∀ rest, read (t :: ts ++ rest) = .ok (a, rest)

theorem Written.exists_takes {read : Reader α} {s : String} {a : α} (h : Written read s a) :
    ∃ ts, Cuts s ts ∧ Takes read ts a := by
  obtain ⟨t, ts, hcuts, hopening, hread⟩ := h.tokens
  exact ⟨t :: ts, hcuts, ⟨t, ts, rfl, hopening⟩, hread⟩

theorem written_of_takes {read : Reader α} {s : String} {ts : List Token} {a : α}
    (hcuts : Cuts s ts) (h : Takes read ts a) : Written read s a := by
  obtain ⟨t, others, rfl, hopening⟩ := h.opening
  exact ⟨t, others, hcuts, hopening, h.read_append⟩

/-- Tokens of a value and nothing else give the value. -/
theorem Takes.run {read : Reader α} {bytes : List UInt8} {ts : List Token} {a : α}
    (h : Takes read ts a) (hbytes : ofBytes bytes = ts) : Reader.run read bytes = .ok a := by
  have hread := h.read_append []
  rw [List.append_nil] at hread
  rw [Reader.run, hbytes, hread]
  rfl

/-- **A whole text of a written value gives the value back.** -/
theorem Written.run {read : Reader α} {s : String} {a : α} (h : Written read s a) :
    Reader.run read (Utf8.encode s) = .ok a := by
  obtain ⟨ts, hcuts, htakes⟩ := h.exists_takes
  have hall := hcuts [] (by rintro b ⟨⟩)
  rw [List.append_nil, ofBytes, List.append_nil] at hall
  exact htakes.run hall

theorem written_string (s : String) : Written Format.string.read (Writer.text s) s :=
  ⟨.text (.ok s), [], cuts_text s, trivial, fun _ => rfl⟩

theorem written_text (depth : Nat) (s : String) :
    Written (Value.read depth) (Writer.text s) (.text s) := by
  refine ⟨.text (.ok s), [], cuts_text s, trivial, fun rest => ?_⟩
  cases depth <;> rfl

theorem written_null (depth : Nat) : Written (Value.read depth) Writer.null .null := by
  refine ⟨.null, [], cuts_null, trivial, fun rest => ?_⟩
  cases depth <;> rfl

/-! ## Arrays -/

theorem elementsFrom_succ {read : Reader α} {isFirst : Bool} {fuel : Nat} {a : α} {as : List α}
    {tokens element others rest : List Token}
    (hnext : Reader.nextElement isFirst tokens = .ok (some element))
    (hread : read element = .ok (a, others))
    (hothers : Reader.elementsFrom read fuel false others = .ok (as, rest)) :
    Reader.elementsFrom read (fuel + 1) isFirst tokens = .ok (a :: as, rest) := by
  simp only [Reader.elementsFrom, hnext, hread, hothers]

theorem nextElement_first {t : Token} (h : t.IsOpening) (ts : List Token) :
    Reader.nextElement true (t :: ts) = .ok (some (t :: ts)) := by
  cases t <;> first | rfl | exact h.elim

theorem nextElement_comma {t : Token} (h : t.IsOpening) (ts : List Token) :
    Reader.nextElement false (.comma :: t :: ts) = .ok (some (t :: ts)) := by
  cases t <;> first | rfl | exact h.elim

theorem elementsFrom_more {read : Reader α} {tss : List (List Token)} {as : List α}
    (h : List.Forall₂ (Takes read) tss as) (rest : List Token) {fuel : Nat}
    (hfuel : tss.length < fuel) :
    Reader.elementsFrom read fuel false (more tss ++ .endArray :: rest) =
      .ok (as, .endArray :: rest) := by
  induction h generalizing fuel with
  | nil =>
      obtain ⟨fuel, rfl⟩ := Nat.exists_eq_succ_of_ne_zero (Nat.ne_of_gt hfuel)
      rfl
  | @cons ts a tss as htakes _ ih =>
      obtain ⟨fuel, rfl⟩ := Nat.exists_eq_succ_of_ne_zero (Nat.ne_of_gt (Nat.zero_lt_of_lt hfuel))
      obtain ⟨t, ts, rfl, hopening⟩ := htakes.opening
      have htokens : more ((t :: ts) :: tss) ++ .endArray :: rest =
          .comma :: t :: (ts ++ (more tss ++ .endArray :: rest)) := by
        simp [more]
      rw [htokens]
      exact elementsFrom_succ (nextElement_comma hopening _) (htakes.read_append _)
        (ih (Nat.lt_of_succ_lt_succ hfuel))

/-- Elements are read up to the end of the array. -/
theorem elements_listed {read : Reader α} {tss : List (List Token)} {as : List α}
    (h : List.Forall₂ (Takes read) tss as) (rest : List Token) :
    Reader.elements read (listed tss ++ .endArray :: rest) = .ok (as, .endArray :: rest) := by
  cases h with
  | nil => rfl
  | @cons ts a tss as htakes hothers =>
      obtain ⟨t, ts, rfl, hopening⟩ := htakes.opening
      have htokens : listed ((t :: ts) :: tss) ++ .endArray :: rest =
          t :: (ts ++ (more tss ++ .endArray :: rest)) := by
        simp [listed]
      have hfuel : tss.length < (t :: (ts ++ (more tss ++ .endArray :: rest))).length := by
        have hmore := length_le_length_more tss
        simp only [List.length_append, List.length_cons]
        omega
      rw [htokens]
      exact elementsFrom_succ (nextElement_first hopening _) (htakes.read_append _)
        (elementsFrom_more hothers rest hfuel)

theorem takes_array {depth : Nat} {tss : List (List Token)} {vs : List Value}
    (h : List.Forall₂ (Takes (Value.read depth)) tss vs) :
    Takes (Value.read (depth + 1)) (arrayTokens tss) (.array vs) := by
  refine ⟨⟨_, _, rfl, trivial⟩, fun rest => ?_⟩
  have htokens : arrayTokens tss ++ rest = .beginArray :: (listed tss ++ .endArray :: rest) := by
    simp [arrayTokens]
  rw [htokens, Value.read, elements_listed h]
  rfl

/-- **Arrays of written values are written values.** -/
theorem written_array {depth : Nat} {ss : List String} {vs : List Value}
    (h : List.Forall₂ (Written (Value.read depth)) ss vs) :
    Written (Value.read (depth + 1)) (Writer.array ss) (.array vs) := by
  have htokens : ∃ tss, List.Forall₂ Cuts ss tss ∧
      List.Forall₂ (Takes (Value.read depth)) tss vs := by
    induction h with
    | nil => exact ⟨[], .nil, .nil⟩
    | cons hwritten _ ih =>
        obtain ⟨ts, hcuts, htakes⟩ := hwritten.exists_takes
        obtain ⟨tss, hall, hothers⟩ := ih
        exact ⟨ts :: tss, .cons hcuts hall, .cons htakes hothers⟩
  obtain ⟨tss, hcuts, htakes⟩ := htokens
  exact written_of_takes (cuts_array hcuts) (takes_array htakes)

/-! ## Objects -/

/-- Members of an object are written so that each takes a reader a step further. -/
inductive MembersWritten (step : String → σ → Reader σ) : σ → List (String × String) → σ → Prop
    where
  | nil (s : σ) : MembersWritten step s [] s
  /-- A member before others: behind its colon is a written value. -/
  | cons {β : Type} {read : Reader β} {key value : String} {b : β} {s s' s'' : σ}
      {members : List (String × String)} (written : Written read value b)
      (takes : ∀ tokens rest, read tokens = .ok (b, rest) →
        step key s (.colon :: tokens) = .ok (s', rest))
      (others : MembersWritten step s' members s'') :
      MembersWritten step s ((key, value) :: members) s''

/-- Tokens of members are such that each member takes a reader a step further. -/
inductive MembersTaken (step : String → σ → Reader σ) :
    σ → List (String × List Token) → σ → Prop where
  | nil (s : σ) : MembersTaken step s [] s
  | cons {key : String} {ts : List Token} {s s' s'' : σ} {members : List (String × List Token)}
      (takes : ∀ rest, step key s (.colon :: (ts ++ rest)) = .ok (s', rest))
      (others : MembersTaken step s' members s'') :
      MembersTaken step s ((key, ts) :: members) s''

theorem MembersWritten.exists_taken {step : String → σ → Reader σ} {s s' : σ}
    {members : List (String × String)} (h : MembersWritten step s members s') :
    ∃ taken : List (String × List Token),
      List.Forall₂ Cuts (members.map fun (key, value) => Writer.member key value)
        (taken.map fun (key, ts) => memberTokens key ts) ∧
      MembersTaken step s taken s' := by
  induction h with
  | nil s => exact ⟨[], .nil, .nil s⟩
  | @cons β read key value b s s' s'' members hwritten htakes _ ih =>
      obtain ⟨ts, hcuts, hread⟩ := hwritten.exists_takes
      obtain ⟨taken, hall, hothers⟩ := ih
      exact ⟨(key, ts) :: taken, .cons (cuts_member hcuts) hall,
        .cons (fun rest => htakes _ _ (hread.read_append rest)) hothers⟩

theorem membersFrom_succ {step : String → σ → Reader σ} {isFirst : Bool} {fuel : Nat}
    {key : String} {s s' s'' : σ} {tokens value others rest : List Token}
    (hnext : Reader.nextKey isFirst tokens = .ok (some (key, value)))
    (hstep : step key s value = .ok (s', others))
    (hothers : Reader.membersFrom step fuel false s' others = .ok (s'', rest)) :
    Reader.membersFrom step (fuel + 1) isFirst s tokens = .ok (s'', rest) := by
  simp only [Reader.membersFrom, hnext, hstep, hothers]

theorem membersFrom_more {step : String → σ → Reader σ} {s s' : σ}
    {members : List (String × List Token)} (h : MembersTaken step s members s')
    (rest : List Token) {fuel : Nat} (hfuel : members.length < fuel) :
    Reader.membersFrom step fuel false s
        (more (members.map fun (key, ts) => memberTokens key ts) ++ .endObject :: rest) =
      .ok (s', .endObject :: rest) := by
  induction h generalizing fuel with
  | nil s =>
      obtain ⟨fuel, rfl⟩ := Nat.exists_eq_succ_of_ne_zero (Nat.ne_of_gt hfuel)
      rfl
  | @cons key ts s s' s'' members htakes _ ih =>
      obtain ⟨fuel, rfl⟩ := Nat.exists_eq_succ_of_ne_zero (Nat.ne_of_gt (Nat.zero_lt_of_lt hfuel))
      simp only [List.map_cons, more, List.flatMap_cons, memberTokens, List.cons_append,
        List.append_assoc]
      exact membersFrom_succ rfl (htakes _) (ih (Nat.lt_of_succ_lt_succ hfuel))

/-- Members are read up to the end of the object. -/
theorem members_listed {step : String → σ → Reader σ} {s s' : σ}
    {members : List (String × List Token)} (h : MembersTaken step s members s')
    (rest : List Token) :
    Reader.members step s
        (listed (members.map fun (key, ts) => memberTokens key ts) ++ .endObject :: rest) =
      .ok (s', .endObject :: rest) := by
  cases h with
  | nil s => rfl
  | @cons key ts s s' s'' members htakes hothers =>
      have hmore := length_le_length_more (members.map fun (key, ts) => memberTokens key ts)
      simp only [List.length_map, memberTokens] at hmore
      simp only [List.map_cons, listed, memberTokens, List.cons_append, List.append_assoc]
      refine membersFrom_succ rfl (htakes _) (membersFrom_more hothers rest ?_)
      simp only [List.length_append, List.length_cons]
      omega

/-- Structures are read from the tokens of their members, where the members give the value. -/
theorem takes_structured {step : String → σ → Reader σ} {s s' : σ}
    {members : List (String × List Token)} {fromMembers fromElements : Reader α} {a : α}
    (h : MembersTaken step s members s')
    (hfrom : ∀ tokens rest, Reader.members step s tokens = .ok (s', rest) →
      fromMembers tokens = .ok (a, rest)) :
    Takes (Reader.structured fromMembers fromElements) (objectTokens members) a := by
  refine ⟨⟨_, _, rfl, trivial⟩, fun rest => ?_⟩
  have htokens : objectTokens members ++ rest = .beginObject ::
      (listed (members.map fun (key, ts) => memberTokens key ts) ++ .endObject :: rest) := by
    simp [objectTokens]
  rw [htokens, Reader.structured, hfrom _ _ (members_listed h rest)]
  rfl

/-- **Structures of written members are written values**, where the members give the value. -/
theorem written_structured {step : String → σ → Reader σ} {s s' : σ}
    {members : List (String × String)} {fromMembers fromElements : Reader α} {a : α}
    (h : MembersWritten step s members s')
    (hfrom : ∀ tokens rest, Reader.members step s tokens = .ok (s', rest) →
      fromMembers tokens = .ok (a, rest)) :
    Written (Reader.structured fromMembers fromElements) (Writer.object members) a := by
  obtain ⟨taken, hcuts, htaken⟩ := h.exists_taken
  exact written_of_takes (cuts_object hcuts) (takes_structured htaken hfrom)

theorem field_of_read {read : Reader α} {a : α} {tokens rest : List Token} (name : String)
    (h : read tokens = .ok (a, rest)) :
    Reader.field name read none (.colon :: tokens) = .ok (some a, rest) := by
  simp only [Reader.field, Reader.afterColon, bind, Except.bind, h]
  rfl

end SplitReader.Json
