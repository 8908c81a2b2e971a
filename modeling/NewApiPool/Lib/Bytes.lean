import Mathlib.Algebra.GroupWithZero.Nat
import Mathlib.Data.List.Basic

/-!
# Words of four bytes

`binary.Write` and `binary.Read` of 32 bits in big-endian order, on lists of bytes, and a
byte made of two four-bit numbers. `sized` is a text behind its length.
-/

namespace Bytes

/-- Four bytes, the highest one first. -/
def be32 (w : UInt32) : List UInt8 :=
  [UInt8.ofNat (w.toNat / 2 ^ 24), UInt8.ofNat (w.toNat / 2 ^ 16), UInt8.ofNat (w.toNat / 2 ^ 8),
    UInt8.ofNat w.toNat]

/-- The word of four bytes. -/
def word (a b c d : UInt8) : UInt32 :=
  UInt32.ofNat (a.toNat * 2 ^ 24 + b.toNat * 2 ^ 16 + c.toNat * 2 ^ 8 + d.toNat)

/-- A text behind its length. -/
def sized (s : List UInt8) : List UInt8 := be32 (UInt32.ofNat s.length) ++ s

@[simp] theorem length_be32 (w : UInt32) : (be32 w).length = 4 := rfl

theorem be32_ne_nil (w : UInt32) : be32 w ≠ [] := List.cons_ne_nil _ _

theorem be32_word (a b c d : UInt8) : be32 (word a b c d) = [a, b, c, d] := by
  have ha := a.toNat_lt
  have hb := b.toNat_lt
  have hc := c.toNat_lt
  have hd := d.toNat_lt
  have hnat : (word a b c d).toNat =
      a.toNat * 2 ^ 24 + b.toNat * 2 ^ 16 + c.toNat * 2 ^ 8 + d.toNat := by
    rw [word, UInt32.toNat_ofNat', Nat.mod_eq_of_lt (by omega)]
  have hbyte (x : UInt8) (n : ℕ) (h : n % 2 ^ 8 = x.toNat) : UInt8.ofNat n = x := by
    rw [← UInt8.toNat_inj, UInt8.toNat_ofNat', h]
  rw [be32, hnat, hbyte a _ (by omega), hbyte b _ (by omega), hbyte c _ (by omega),
    hbyte d _ (by omega)]

theorem exists_word (w : UInt32) : ∃ a b c d, be32 w = [a, b, c, d] ∧ word a b c d = w := by
  refine ⟨_, _, _, _, rfl, ?_⟩
  have hw := w.toNat_lt
  rw [word, ← UInt32.toNat_inj]
  simp only [UInt8.toNat_ofNat', UInt32.toNat_ofNat']
  omega

theorem be32_injective : Function.Injective be32 := by
  intro v w h
  obtain ⟨a, b, c, d, hv, rfl⟩ := exists_word v
  obtain ⟨a', b', c', d', hw, rfl⟩ := exists_word w
  rw [hv, hw] at h
  cases h
  rfl

theorem be32_append_inj {v w : UInt32} {s t : List UInt8} :
    be32 v ++ s = be32 w ++ t ↔ v = w ∧ s = t := by
  constructor
  · intro h
    obtain ⟨hv, hs⟩ := List.append_inj h rfl
    exact ⟨be32_injective hv, hs⟩
  · rintro ⟨rfl, rfl⟩
    rfl

@[simp] theorem length_sized (s : List UInt8) : (sized s).length = 4 + s.length := by
  rw [sized, List.length_append, length_be32]

theorem toNat_length {s : List UInt8} (h : s.length < 2 ^ 32) :
    (UInt32.ofNat s.length).toNat = s.length := by
  rw [UInt32.toNat_ofNat', Nat.mod_eq_of_lt h]

theorem sized_inj {s t : List UInt8} : sized s = sized t ↔ s = t := by
  refine ⟨fun h => ?_, congrArg sized⟩
  exact (List.append_inj h rfl).2

/-! ### Reading -/

/-- `binary.Read` of 32 bits: the word and the bytes behind it. -/
def readWord : List UInt8 → Except String (UInt32 × List UInt8)
  | a :: b :: c :: d :: rest => .ok (word a b c d, rest)
  | [] => .error "EOF"
  | _ => .error "unexpected EOF"

theorem readWord_eq_ok {buf rest : List UInt8} {w : UInt32} :
    readWord buf = .ok (w, rest) ↔ buf = be32 w ++ rest := by
  constructor
  · intro h
    match buf, h with
    | a :: b :: c :: d :: rest', h =>
      cases h
      rw [be32_word]
      rfl
  · rintro rfl
    obtain ⟨a, b, c, d, hw, rfl⟩ := exists_word w
    rw [hw]
    rfl

@[simp] theorem readWord_be32 (w : UInt32) (rest : List UInt8) :
    readWord (be32 w ++ rest) = .ok (w, rest) := readWord_eq_ok.mpr rfl

/-! ### Halves of a byte -/

/-- Facts about a byte, checked on the 256 numbers, and about two four-bit numbers, checked on
their 256 pairs. -/
theorem checked :
    (∀ i : Fin 256, let x := UInt8.ofNat i
      (x &&& 15 = 0 → x <<< 4 = 0 ∧ (x < 16 → x = 0)) ∧ (x >>> 4 = 0 ↔ x &&& 240 = 0) ∧
        (x >>> 4 < 16 ∧ x &&& 15 < 16 ∧ x = (x >>> 4) <<< 4 ||| (x &&& 15)) ∧
        (x &&& 240) &&& (15 : UInt8) = 0 ∧ x = (x &&& 240) ||| (x &&& 15)) ∧
    ∀ i j : Fin 16, let a := UInt8.ofNat i
      let b := UInt8.ofNat j
      a = (a <<< 4 ||| b) >>> 4 ∧ b = (a <<< 4 ||| b) &&& (15 : UInt8) ∧
        a <<< 4 = (a <<< 4 ||| b) &&& (240 : UInt8) := by
  decide +kernel

/-- **A byte is its two halves.** -/
theorem byte_spec (x : UInt8) :
    (x &&& 15 = 0 → x <<< 4 = 0 ∧ (x < 16 → x = 0)) ∧ (x >>> 4 = 0 ↔ x &&& 240 = 0) ∧
      (x >>> 4 < 16 ∧ x &&& 15 < 16 ∧ x = (x >>> 4) <<< 4 ||| (x &&& 15)) ∧
      (x &&& 240) &&& (15 : UInt8) = 0 ∧ x = (x &&& 240) ||| (x &&& 15) := by
  have hx := checked.1 ⟨x.toNat, x.toNat_lt⟩
  rwa [UInt8.ofNat_toNat] at hx

/-- **Two four-bit numbers are the halves of a byte.** -/
theorem halves_spec {a b : UInt8} (ha : a < 16) (hb : b < 16) :
    a = (a <<< 4 ||| b) >>> 4 ∧ b = (a <<< 4 ||| b) &&& (15 : UInt8) ∧
      a <<< 4 = (a <<< 4 ||| b) &&& (240 : UInt8) := by
  have hab := checked.2 ⟨a.toNat, ha⟩ ⟨b.toNat, hb⟩
  rwa [UInt8.ofNat_toNat, UInt8.ofNat_toNat] at hab

theorem eq_zero_of_low {x : UInt8} (hlt : x < 16) (h : x &&& 15 = 0) : x = 0 :=
  ((byte_spec x).1 h).2 hlt

theorem high_eq_zero_iff (x : UInt8) : x >>> 4 = 0 ↔ x &&& 240 = 0 := (byte_spec x).2.1

theorem halves_iff {a b x : UInt8} :
    (a = x >>> 4 ∧ b = x &&& 15) ↔ a < 16 ∧ b < 16 ∧ x = a <<< 4 ||| b := by
  constructor
  · rintro ⟨rfl, rfl⟩
    exact (byte_spec x).2.2.1
  · rintro ⟨ha, hb, rfl⟩
    exact ⟨(halves_spec ha hb).1, (halves_spec ha hb).2.1⟩

/-- A byte and its two halves, the high one left where it is. -/
theorem masked_iff {a b x : UInt8} :
    (a = x &&& 240 ∧ b = x &&& 15) ↔ a &&& 15 = 0 ∧ b < 16 ∧ x = a ||| b := by
  constructor
  · rintro ⟨rfl, rfl⟩
    obtain ⟨-, -, ⟨-, hlt, -⟩, hlow, hsum⟩ := byte_spec x
    exact ⟨hlow, hlt, hsum⟩
  · rintro ⟨ha, hb, rfl⟩
    -- the high half of `a` is all of it
    obtain ⟨-, -, ⟨hlt, -, hsum⟩, -⟩ := byte_spec a
    rw [ha, UInt8.or_zero] at hsum
    obtain ⟨-, hlow, hhigh⟩ := halves_spec hlt hb
    rw [← hsum] at hlow hhigh
    exact ⟨hhigh, hlow⟩

/-- The high half of a byte is left alone by a shift only if it is zero. -/
theorem shifted_iff {a b : UInt8} (ha : a &&& 15 = 0) (hb : b < 16) :
    a <<< 4 ||| b = a ||| b ↔ a = 0 := by
  rw [((byte_spec a).1 ha).1]
  constructor
  · intro h
    rw [(masked_iff.mpr ⟨ha, hb, rfl⟩).1, ← h]
    exact (masked_iff.mpr ⟨rfl, hb, rfl⟩).1.symm
  · rintro rfl
    rfl

end Bytes
