import MemFs.Text.Utf8
import Mathlib.Tactic.SplitIfs

/-!
# The order of texts is the order of their bytes

Texts are ordered by code points, and so are their bytes: a smaller code point has a smaller lead
byte, or the same lead byte and smaller bits in the bytes that continue it.
-/

namespace MemFs.Utf8

/-- How many numbers this many bytes can continue. -/
private def weight : (count : Nat) → Nat
  | 0 => 1
  | count + 1 => weight count * 64

/-- The bytes that continue a character: six bits each, the high ones first. -/
private def continuation : (count value : Nat) → List UInt8
  | 0, _ => []
  | count + 1, value => UInt8.ofNat (value / weight count % 64 + 0x80) :: continuation count value

/-- The number of bytes that continue the character with this code point. -/
private def further (value : Nat) : Nat :=
  if value ≤ 0x7f then 0 else if value ≤ 0x7ff then 1 else if value ≤ 0xffff then 2 else 3

/-- The first byte of the character with this code point. -/
private def lead (value : Nat) : Nat :=
  if value ≤ 0x7f then value
  else if value ≤ 0x7ff then value / 64 % 0x20 + 0xc0
  else if value ≤ 0xffff then value / 4096 % 0x10 + 0xe0
  else value / 262144 % 0x08 + 0xf0

private theorem utf8EncodeChar_eq (character : Char) :
    String.utf8EncodeChar character =
      UInt8.ofNat (lead character.val.toNat)
        :: continuation (further character.val.toNat) character.val.toNat := by
  unfold String.utf8EncodeChar lead further
  generalize character.val.toNat = value
  dsimp only
  split_ifs <;> simp [continuation, weight]

/-- Of two characters of different lengths, the longer one has the greater lead byte. -/
private theorem lead_lt_or {low high : Nat} (smaller : low < high) (bound : high < 0x110000) :
    lead high < 256 ∧
      (lead low < lead high ∨
        lead low = lead high ∧ further low = further high ∧
          low % weight (further high) < high % weight (further high)) := by
  have one : weight 1 = 64 := rfl
  have two : weight 2 = 4096 := rfl
  have three : weight 3 = 262144 := rfl
  unfold lead further
  split_ifs
  all_goals try simp only [one, two, three, true_and]
  all_goals omega

private theorem weight_pos (count : Nat) : 0 < weight count := by
  induction count with
  | zero => exact Nat.one_pos
  | succ count inductionHypothesis => exact Nat.mul_pos inductionHypothesis (by decide)

private theorem ofNat_lt_ofNat {low high : Nat} (smaller : low < high) (small : high < 256) :
    UInt8.ofNat low < UInt8.ofNat high := by
  rw [UInt8.lt_iff_toNat_lt, UInt8.toNat_ofNat', UInt8.toNat_ofNat']
  omega

private theorem cons_lt_cons_of_lt {low high : Nat} (smaller : low < high) (small : high < 256)
    (rest more : List UInt8) : UInt8.ofNat low :: rest < UInt8.ofNat high :: more :=
  List.cons_lt_cons_iff.mpr (Or.inl (ofNat_lt_ofNat smaller small))

private theorem continuation_lt {count low high : Nat}
    (smaller : low % weight count < high % weight count) (rest more : List UInt8) :
    continuation count low ++ rest < continuation count high ++ more := by
  induction count with
  | zero => simp [weight, Nat.mod_one] at smaller
  | succ count inductionHypothesis =>
      rw [weight, Nat.mod_mul, Nat.mod_mul] at smaller
      have lowBits : low % weight count < weight count := Nat.mod_lt _ (weight_pos count)
      have highBits : high % weight count < weight count := Nat.mod_lt _ (weight_pos count)
      rcases Nat.lt_trichotomy (low / weight count % 64) (high / weight count % 64) with
        before | same | behind
      · exact cons_lt_cons_of_lt (by omega) (by omega) _ _
      · rw [same] at smaller
        have further := inductionHypothesis (by omega)
        rw [continuation, continuation, same]
        exact List.cons_lt_cons_iff.mpr (Or.inr ⟨rfl, further⟩)
      · have above := Nat.mul_le_mul_left (weight count) (Nat.succ_le_of_lt behind)
        rw [Nat.mul_succ] at above
        omega

private theorem toNat_val_lt (character : Char) : character.val.toNat < 0x110000 := by
  rcases character.valid with low | ⟨-, high⟩
  · exact Nat.lt_trans low (by decide)
  · exact high

/-- The bytes of a smaller character are smaller, whatever follows them. -/
theorem utf8EncodeChar_lt {first second : Char} (before : first < second)
    (rest more : List UInt8) :
    String.utf8EncodeChar first ++ rest < String.utf8EncodeChar second ++ more := by
  have smaller : first.val.toNat < second.val.toNat := before
  have bound := toNat_val_lt second
  obtain ⟨small, before | ⟨sameLead, sameLength, behind⟩⟩ := lead_lt_or smaller bound
  · rw [utf8EncodeChar_eq, utf8EncodeChar_eq]
    exact cons_lt_cons_of_lt before small _ _
  · rw [utf8EncodeChar_eq, utf8EncodeChar_eq, sameLead, sameLength]
    exact List.cons_lt_cons_iff.mpr (Or.inr ⟨rfl, continuation_lt behind rest more⟩)

theorem encode_eq_flatMap (text : String) :
    encode text = text.toList.flatMap String.utf8EncodeChar := by
  rw [encode, ← String.utf8Encode_toList, List.utf8Encode]
  simp

private theorem flatMap_lt {first second : List Char} (before : first < second) :
    first.flatMap String.utf8EncodeChar < second.flatMap String.utf8EncodeChar := by
  induction before with
  | nil =>
      rw [List.flatMap_nil, List.flatMap_cons]
      cases bytes : String.utf8EncodeChar _ with
      | nil => exact absurd bytes String.utf8EncodeChar_ne_nil
      | cons byte rest => exact List.Lex.nil
  | rel smaller => exact utf8EncodeChar_lt smaller _ _
  | @cons character first second _ inductionHypothesis =>
      rw [List.flatMap_cons, List.flatMap_cons]
      exact List.append_left_lt inductionHypothesis

/-- The bytes of a smaller text are smaller. -/
theorem encode_lt_encode {first second : String} (before : first < second) :
    encode first < encode second := by
  rw [encode_eq_flatMap, encode_eq_flatMap]
  exact flatMap_lt before

end MemFs.Utf8
