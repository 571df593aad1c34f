import SplitReader.Proofs.ItemJson
import SplitReader.Proofs.JsonNumber

/-! # Work items come back from their texts

What is left to see of a written work item is that its bounds come back. A bound is kept as a tree
before it is known what it bounds, so a signed one that is not below zero is first taken for an
unsigned word, and one that is missing for no value at all; both are told apart again when the
source is put together (`exists_written_signed`, `exists_written_unsigned`). So every source is read
back from its text, and with it every work item (`decode_writeJson`).
-/

set_option autoImplicit false

namespace SplitReader

open Json

namespace SourceSpec

/-! ## Bounds -/

/-- A signed word that is not below zero is an unsigned word in the lower half of all words. -/
theorem toNat_ofNat_toInt {n : Int64} (h : 0 ≤ n.toInt) :
    (UInt64.ofNat n.toInt.toNat).toNat = n.toInt.toNat ∧ n.toInt.toNat < Word.signedBound := by
  have hupper := n.toInt_lt
  have hsmall : n.toInt.toNat < Word.signedBound := by
    unfold Word.signedBound
    omega
  refine ⟨UInt64.toNat_ofNat_of_lt' ?_, hsmall⟩
  rw [← Word.two_signedBound]
  omega

theorem signedOf_natural {n : Int64} (h : 0 ≤ n.toInt) :
    signedOf (.number (.natural (.ofNat n.toInt.toNat))) = .ok (some n) := by
  obtain ⟨hword, hsmall⟩ := toNat_ofNat_toInt h
  have hback : Int64.ofNat n.toInt.toNat = n := by
    calc Int64.ofNat n.toInt.toNat
      _ = Int64.ofInt (n.toInt.toNat : Int) := Int64.ofInt_eq_ofNat.symm
      _ = Int64.ofInt n.toInt := by rw [Int.toNat_of_nonneg h]
      _ = n := n.ofInt_toInt
  rw [signedOf, hword, if_pos hsmall, hback]

theorem exists_written_signed (depth : Nat) (bound : Option Int64) :
    ∃ v, Written (Value.read depth) (Format.int64.optional.write bound) v ∧
      signedOf v = .ok bound := by
  cases bound with
  | none => exact ⟨.null, written_null depth, rfl⟩
  | some n =>
      by_cases hneg : n.toInt < 0
      · exact ⟨.number (.negative n), written_negative depth hneg, rfl⟩
      · have hnat : 0 ≤ n.toInt := by omega
        refine ⟨.number (.natural (.ofNat n.toInt.toNat)), ?_, signedOf_natural hnat⟩
        have htext : Format.int64.optional.write (some n) =
            Writer.natural (UInt64.ofNat n.toInt.toNat).toNat := by
          have habs : n.toInt.natAbs = n.toInt.toNat := by omega
          show Decimal.integer n.toInt = Decimal.natural _
          rw [Decimal.integer, if_neg hneg, habs, (toNat_ofNat_toInt hnat).1]
        rw [htext]
        exact written_natural depth _

theorem exists_written_unsigned (depth : Nat) (bound : Option UInt64) :
    ∃ v, Written (Value.read depth) (Format.uint64.optional.write bound) v ∧
      unsignedOf v = .ok bound := by
  cases bound with
  | none => exact ⟨.null, written_null depth, rfl⟩
  | some n => exact ⟨.number (.natural n), written_natural depth n, rfl⟩

/-! ## Sources -/

theorem ofParts_textFile (path : String) {low high : Value} {start stop : Option UInt64}
    (hlow : unsignedOf low = .ok start) (hhigh : unsignedOf high = .ok stop) :
    ofParts textFileKind (.members [("path", .text path), ("start_offset", low),
      ("end_offset", high)]) = .ok (.textFile path start stop) := by
  have hkind : textFileKind ≠ inMemoryKind := by decide
  simp only [ofParts, if_neg hkind, textOfMembers, List.foldlM_cons, List.foldlM_nil, keepTextField,
    keep, textOf, hlow, hhigh, bind, Except.bind, Except.map, pure, Except.pure, Reader.required]
  rfl

/-- **Every source is read back.** -/
theorem written_writeJson (source : SourceSpec) : Written readJson source.writeJson source := by
  cases source with
  | inMemory records encoding start stop =>
      obtain ⟨low, hstart, hlow⟩ := exists_written_signed memberDepth start
      obtain ⟨high, hstop, hhigh⟩ := exists_written_signed memberDepth stop
      exact written_inMemory records encoding hstart hstop hlow hhigh
  | textFile path start stop =>
      obtain ⟨low, hstart, hlow⟩ := exists_written_unsigned memberDepth start
      obtain ⟨high, hstop, hhigh⟩ := exists_written_unsigned memberDepth stop
      refine written_of_ofParts (by decide) ?_ (ofParts_textFile path hlow hhigh)
      exact .cons ⟨rfl, show "path" ≠ "kind" by decide, written_text _ path⟩ <|
        .cons ⟨rfl, show "start_offset" ≠ "kind" by decide, hstart⟩ <|
          .cons ⟨rfl, show "end_offset" ≠ "kind" by decide, hstop⟩ .nil

end SourceSpec

/-! ## Work items -/

namespace WorkItem

/-- **A work item is read back from its text**, whatever its identifier, its records or its path
are, and whatever bounds it has: by the reader of the format, and as the content of a file, which
has to be text first. -/
theorem decode_writeJson (w : WorkItem) :
    json.decode (Utf8.encode w.writeJson) = .ok w ∧ ofBytes (Utf8.encode w.writeJson) = .ok w := by
  have hsource := w.source.written_writeJson
  constructor
  · exact (written_of_source hsource).run
  · exact ofBytes_encode hsource

end WorkItem

end SplitReader
