import SplitReader.Proofs.Lines

/-! # Lines written one below the other

Written each with a line feed behind it, the lines of a content are the content again, except for
terminators: a carriage return directly before a line feed is gone, and a last line without a line
feed has got one (`flatMap_allIn`). A carriage return at the very end of the content is part of the
last line and stays.

The lines of adjacent ranges are those of the range over all of them (`flatMap_allIn_chain`).
-/

set_option autoImplicit false

namespace SplitReader

namespace Line

open BufferedFile (lineFeed carriageReturn)

/-! ## Terminators -/

/-- A content without the carriage returns that stand directly before a line feed. -/
def withoutReturns : List UInt8 → List UInt8
  | [] => []
  | b :: rest =>
      if b = carriageReturn ∧ rest.head? = some lineFeed then withoutReturns rest
      else b :: withoutReturns rest

/-- The line feed that a content lacks, if it is not empty and does not end with one. -/
def missingFeed (content : List UInt8) : List UInt8 :=
  if content = [] ∨ content.getLast? = some lineFeed then [] else [lineFeed]

/-- A content with a line feed as the only terminator, also behind the last line. -/
def normalized (content : List UInt8) : List UInt8 := withoutReturns content ++ missingFeed content

/-- A body without one carriage return at its end. -/
def chomp (body : List UInt8) : List UInt8 :=
  if body.getLast? = some carriageReturn then body.dropLast else body

variable {content body more : List UInt8} {offset : Nat}

theorem withoutReturns_of_notMem (h : lineFeed ∉ body) : withoutReturns body = body := by
  induction body with
  | nil => rfl
  | cons b body ih =>
      have hhead : body.head? ≠ some lineFeed :=
        fun hfeed => h (List.mem_cons_of_mem _ (List.mem_of_mem_head? hfeed))
      rw [withoutReturns, if_neg fun hreturn => hhead hreturn.2,
        ih fun hmem => h (List.mem_cons_of_mem _ hmem)]

/-- Up to the first line feed only the carriage return before it is lost. -/
theorem withoutReturns_append_lineFeed (h : lineFeed ∉ body) (more : List UInt8) :
    withoutReturns (body ++ lineFeed :: more) =
      chomp body ++ lineFeed :: withoutReturns more := by
  induction body with
  | nil =>
      have hfeed : ¬ (lineFeed = carriageReturn ∧ more.head? = some lineFeed) := by
        rintro ⟨⟨⟩, -⟩
      rw [List.nil_append, withoutReturns, if_neg hfeed]
      rfl
  | cons b body ih =>
      have hbody : lineFeed ∉ body := fun hmem => h (List.mem_cons_of_mem _ hmem)
      rw [List.cons_append, withoutReturns, ih hbody]
      cases body with
      | nil =>
          by_cases hreturn : b = carriageReturn
          · subst hreturn
            rfl
          · simp [chomp, hreturn]
      | cons c body =>
          have hne : c ≠ lineFeed := fun hc => hbody (hc ▸ List.mem_cons_self)
          rw [if_neg fun hreturn => hne (Option.some.inj hreturn.2)]
          simp only [chomp, List.getLast?_cons_cons, List.dropLast_cons_cons]
          split <;> rfl

theorem normalized_append_lineFeed (h : lineFeed ∉ body) (more : List UInt8) :
    normalized (body ++ lineFeed :: more) = chomp body ++ lineFeed :: normalized more := by
  have hmissing : missingFeed (body ++ lineFeed :: more) = missingFeed more := by
    cases more with
    | nil => simp [missingFeed]
    | cons b more => simp [missingFeed]
  rw [normalized, normalized, withoutReturns_append_lineFeed h, hmissing, List.append_assoc]
  rfl

theorem normalized_of_notMem (h : lineFeed ∉ body) (hne : body ≠ []) :
    normalized body = body ++ [lineFeed] := by
  have hlast : ¬ (body = [] ∨ body.getLast? = some lineFeed) := by
    rintro (hnil | hfeed)
    · exact hne hnil
    · exact h (List.mem_of_getLast? hfeed)
  rw [normalized, withoutReturns_of_notMem h, missingFeed, if_neg hlast]

/-! ## Lines -/

/-- The text of a line that ends with a line feed is what stands before it, without one carriage
return. -/
theorem textAt_of_append (hrest : content.drop offset = body ++ lineFeed :: more)
    (hbody : lineFeed ∉ body) :
    textAt content offset = chomp body ∧ behind content offset = offset + (body.length + 1) := by
  have hlength : (content.drop offset).length = content.length - offset := List.length_drop ..
  rw [hrest, List.length_append, List.length_cons] at hlength
  have hinside : offset + body.length < content.length := by omega
  have hwidth : width content offset = body.length := by
    rw [width, hrest, List.idxOf_append, if_neg hbody, List.idxOf_cons_self, Nat.zero_add]
  constructor
  · simp only [textAt, hwidth, hrest, List.take_left, hinside, true_and]
    rfl
  · rw [behind, hwidth]
    omega

theorem textAt_of_notMem (hfeed : lineFeed ∉ content.drop offset)
    (hle : offset ≤ content.length) :
    textAt content offset = content.drop offset ∧ behind content offset = content.length := by
  have hlength : (content.drop offset).length = content.length - offset := List.length_drop ..
  have hwidth : width content offset = content.length - offset := by
    rw [width, List.idxOf_eq_length hfeed, hlength]
  have hinside : ¬ offset + (content.length - offset) < content.length := by omega
  constructor
  · simp only [textAt, hwidth, ← hlength, List.take_length]
    rw [hlength, if_neg fun hreturn => hinside hreturn.1]
  · rw [behind, hwidth]
    omega

/-- The first line of what follows an offset, and what follows it. -/
theorem normalized_drop (hlt : offset < content.length) :
    normalized (content.drop offset) =
      textAt content offset ++ lineFeed :: normalized (content.drop (behind content offset)) := by
  by_cases hfeed : lineFeed ∈ content.drop offset
  · obtain ⟨body, more, hrest, hbody⟩ := List.eq_append_cons_of_mem hfeed
    obtain ⟨htext, hbehind⟩ := textAt_of_append hrest hbody
    have hmore : content.drop (behind content offset) = more := by
      rw [hbehind, ← List.drop_drop, hrest, List.drop_append]
      simp
    rw [hrest, normalized_append_lineFeed hbody, htext, hmore]
  · obtain ⟨htext, hbehind⟩ := textAt_of_notMem hfeed (Nat.le_of_lt hlt)
    have hne : content.drop offset ≠ [] := by
      rw [ne_eq, List.drop_eq_nil_iff]
      omega
    rw [normalized_of_notMem hfeed hne, htext, hbehind, List.drop_length]
    rfl

theorem allIn_eq_cons (hlt : offset < content.length) (hstarts : startsAt content offset = true) :
    allIn content offset content.length =
      ⟨offset, textAt content offset⟩ :: allIn content (behind content offset) content.length := by
  rw [allIn, startsIn_cons hlt hstarts (lt_behind hlt)
    (fun o hlo hhi => not_startsAt_of_lt_behind hlo hhi)]
  rfl

/-- **The lines from a line start on**, written one below the other. -/
theorem flatMap_allIn_from (content : List UInt8) (offset : Nat)
    (hstarts : offset < content.length → startsAt content offset = true) :
    (allIn content offset content.length).flatMap (fun l => l.text ++ [lineFeed]) =
      normalized (content.drop offset) := by
  -- By induction on what is left of the content, line by line.
  induction hleft : content.length - offset using Nat.strongRecOn generalizing offset with
  | ind left ih =>
      by_cases hlt : offset < content.length
      · have hnext := lt_behind hlt
        rw [allIn_eq_cons hlt (hstarts hlt), List.flatMap_cons, normalized_drop hlt,
          ih (content.length - behind content offset) (by omega) _ startsAt_behind rfl]
        simp
      · rw [allIn, startsIn_of_le _ (Nat.le_of_not_lt hlt),
          List.drop_eq_nil_of_le (Nat.le_of_not_lt hlt)]
        rfl

/-- **All lines**, written one below the other, are the content with its terminators normalized. -/
theorem flatMap_allIn (content : List UInt8) :
    (allIn content 0 content.length).flatMap (fun l => l.text ++ [lineFeed]) =
      normalized content :=
  flatMap_allIn_from content 0 fun hlt => startsAt_iff.mpr ⟨hlt, Or.inl rfl⟩

-- The carriage return at the end comes to stand before the line feed that is added, and stays.
example : (allIn [97, 13, 10, 13, 13, 10, 98, 13] 0 8).flatMap (fun l => l.text ++ [lineFeed]) =
    [97, 10, 13, 10, 98, 13, 10] := by
  decide

theorem allIn_append {i j k : Nat} (hij : i ≤ j) (hjk : j ≤ k) :
    allIn content i j ++ allIn content j k = allIn content i k := by
  rw [allIn, allIn, allIn, ← List.map_append, startsIn_append _ hij hjk]

/-- The lines of the ranges between cuts are those of the whole range. -/
theorem flatMap_allIn_chain (content : List UInt8) (cut : Nat → Nat) (count : Nat)
    (hcut : ∀ i, i < count → cut i ≤ cut (i + 1)) :
    cut 0 ≤ cut count ∧
      (List.range count).flatMap (fun i => allIn content (cut i) (cut (i + 1))) =
        allIn content (cut 0) (cut count) := by
  induction count with
  | zero =>
      refine ⟨Nat.le_refl _, ?_⟩
      rw [allIn, startsIn_of_le _ (Nat.le_refl _)]
      rfl
  | succ count ih =>
      obtain ⟨hle, hlines⟩ := ih fun i hi => hcut i (Nat.lt_succ_of_lt hi)
      have hlast := hcut count (Nat.lt_succ_self count)
      refine ⟨Nat.le_trans hle hlast, ?_⟩
      rw [List.range_succ, List.flatMap_append, hlines]
      simp only [List.flatMap_cons, List.flatMap_nil, List.append_nil]
      exact allIn_append hle hlast

end Line

end SplitReader
