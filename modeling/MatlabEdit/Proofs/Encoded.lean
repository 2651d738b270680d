import MatlabEdit.Text.Line
import MatlabEdit.Proofs.Strip

/-!
# Characters and their bytes

The indentation works on characters and the scanner on bytes. Every character that
either of them looks for is ASCII, so it is one byte, and that byte is part of no
longer character. Where the white space of a text is ASCII too, trimming its
characters and trimming its bytes come to the same thing (`encode_strip`).
-/

namespace MatlabEdit

/-- The bytes of a text. -/
def encode (text : List Char) : List UInt8 := text.flatMap String.utf8EncodeChar

theorem encode_append (l l' : List Char) : encode (l ++ l') = encode l ++ encode l' :=
  List.flatMap_append

theorem encode_cons (c : Char) (l : List Char) :
    encode (c :: l) = String.utf8EncodeChar c ++ encode l := List.flatMap_cons

theorem toUTF8_ofList (l : List Char) : (String.ofList l).toUTF8.data.toList = encode l := by
  rw [String.toUTF8_eq_toByteArray, String.toByteArray_ofList]
  simp [List.utf8Encode, encode]

theorem encode_inj {l l' : List Char} (h : encode l = encode l') : l = l' := by
  have hbytes : l.utf8Encode = l'.utf8Encode := congrArg List.toByteArray h
  have hstring : String.ofList l = String.ofList l' := by
    rw [← String.toByteArray_inj, String.toByteArray_ofList, String.toByteArray_ofList, hbytes]
  exact String.ofList_injective hstring

/-! ## One character -/

theorem utf8EncodeChar_of_ascii {c : Char} (h : c.toNat < 128) :
    String.utf8EncodeChar c = [UInt8.ofNat c.toNat] := by
  have hle : c.val.toNat ≤ 0x7f := Nat.le_of_lt_succ h
  unfold String.utf8EncodeChar
  dsimp only
  rw [if_pos hle]
  rfl

/-- No byte of a longer character is ASCII. -/
theorem le_of_mem_utf8EncodeChar {c : Char} (h : 128 ≤ c.toNat) {b : UInt8}
    (hb : b ∈ String.utf8EncodeChar c) : 128 ≤ b.toNat := by
  -- every byte of a longer character is a marker above ASCII and some bits
  have hlead : ∀ n m : Nat, 128 ≤ m → m + n < 256 → 128 ≤ (UInt8.ofNat (n + m)).toNat := by
    intro n m hm hlt
    rw [UInt8.toNat_ofNat_of_lt' (show n + m < 256 by omega)]
    omega
  have hle : ¬ c.val.toNat ≤ 0x7f := by
    show ¬ c.toNat ≤ 127
    omega
  unfold String.utf8EncodeChar at hb
  dsimp only at hb
  rw [if_neg hle] at hb
  split at hb
  · simp only [List.mem_cons, List.not_mem_nil, or_false] at hb
    rcases hb with rfl | rfl <;> exact hlead _ _ (by omega) (by omega)
  split at hb
  · simp only [List.mem_cons, List.not_mem_nil, or_false] at hb
    rcases hb with rfl | rfl | rfl <;> exact hlead _ _ (by omega) (by omega)
  · simp only [List.mem_cons, List.not_mem_nil, or_false] at hb
    rcases hb with rfl | rfl | rfl | rfl <;> exact hlead _ _ (by omega) (by omega)

/-- An ASCII byte among the bytes of a character is that character. -/
theorem toNat_of_mem_utf8EncodeChar {c : Char} {b : UInt8} (hb : b ∈ String.utf8EncodeChar c)
    (h : b.toNat < 128) : c.toNat = b.toNat := by
  rcases Nat.lt_or_ge c.toNat 128 with hc | hc
  · rw [utf8EncodeChar_of_ascii hc, List.mem_singleton] at hb
    rw [hb, UInt8.toNat_ofNat_of_lt' (show c.toNat < 256 by omega)]
  · have := le_of_mem_utf8EncodeChar hc hb
    omega

theorem mem_encode {l : List Char} {b : UInt8} (hb : b ∈ encode l) :
    ∃ c ∈ l, b ∈ String.utf8EncodeChar c := List.mem_flatMap.mp hb

/-- An ASCII byte of a text comes from one of its characters. -/
theorem exists_of_mem_encode {l : List Char} {b : UInt8} (hb : b ∈ encode l) (h : b.toNat < 128) :
    ∃ c ∈ l, c.toNat = b.toNat := by
  obtain ⟨c, hc, hbc⟩ := mem_encode hb
  exact ⟨c, hc, toNat_of_mem_utf8EncodeChar hbc h⟩

/-! ## Trimming -/

/-- Two classes, of characters and of bytes, that agree on the characters of a text. -/
structure Agree (p : Char → Bool) (q : UInt8 → Bool) (l : List Char) : Prop where
  /-- Every byte of a character of the class is of the class. -/
  pos : ∀ c ∈ l, p c = true → ∀ b ∈ String.utf8EncodeChar c, q b = true
  /-- No byte of any other character is. -/
  neg : ∀ c ∈ l, p c = false → ∀ b ∈ String.utf8EncodeChar c, q b = false

variable {p : Char → Bool} {q : UInt8 → Bool}

theorem head?_encode {l : List Char} {b : UInt8} (h : (encode l).head? = some b) :
    ∃ c, l.head? = some c ∧ b ∈ String.utf8EncodeChar c := by
  cases l with
  | nil => exact absurd h (by simp [encode])
  | cons c l =>
    obtain ⟨x, xs, hx⟩ := List.exists_cons_of_ne_nil (String.utf8EncodeChar_ne_nil (c := c))
    rw [encode_cons, hx, List.cons_append, List.head?_cons] at h
    refine ⟨c, rfl, ?_⟩
    rw [hx, ← Option.some.inj h]
    exact List.mem_cons_self

theorem getLast?_encode {l : List Char} {b : UInt8} (h : (encode l).getLast? = some b) :
    ∃ c, l.getLast? = some c ∧ b ∈ String.utf8EncodeChar c := by
  rcases List.eq_nil_or_concat l with rfl | ⟨front, c, rfl⟩
  · exact absurd h (by simp [encode])
  · have hne : encode [c] ≠ [] := by simp [encode, String.utf8EncodeChar_ne_nil]
    obtain ⟨x, hx⟩ := Option.ne_none_iff_exists'.mp fun hnone =>
      hne (List.getLast?_eq_none_iff.mp hnone)
    rw [List.concat_eq_append, encode_append, List.getLast?_append, hx] at h
    refine ⟨c, by simp, ?_⟩
    have hmem := List.mem_of_getLast? hx
    rw [Option.some_or, Option.some.injEq] at h
    rw [← h]
    simpa [encode] using hmem

/-- Trimming before and after taking the bytes is the same. -/
theorem encode_strip {l : List Char} (h : Agree p q l) :
    encode (strip p l) = strip q (encode l) := by
  obtain ⟨post, hl, hpost⟩ := exists_margins p l
  have hmem : ∀ c ∈ strip p l, c ∈ l := fun c hc => mem_of_mem_strip hc
  have hmemPost : ∀ c ∈ post, c ∈ l := fun c hc => by
    rw [hl]
    exact List.mem_append_right _ hc
  -- the margins become margins, and the text in between has none
  have hsplit : encode l = encode (l.takeWhile p) ++ encode (strip p l) ++ encode post := by
    conv => lhs; rw [hl]
    rw [encode_append, encode_append]
  rw [hsplit]
  refine (strip_append ?_ ?_ ?_ ?_).symm
  · intro b hb
    obtain ⟨c, hc, hbc⟩ := mem_encode hb
    exact h.pos c ((List.takeWhile_sublist p).subset hc) (List.mem_takeWhile_imp hc) b hbc
  · intro b hb
    obtain ⟨c, hc, hbc⟩ := mem_encode hb
    exact h.pos c (hmemPost c hc) (hpost c hc) b hbc
  · intro b hb
    obtain ⟨c, hc, hbc⟩ := head?_encode hb
    exact h.neg c (hmem c (List.mem_of_head? hc)) (head?_strip hc) b hbc
  · intro b hb
    obtain ⟨c, hc, hbc⟩ := getLast?_encode hb
    exact h.neg c (hmem c (List.mem_of_getLast? hc)) (getLast?_strip hc) b hbc

end MatlabEdit
