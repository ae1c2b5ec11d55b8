import Mathlib
import PollSocket.Text.Utf8

set_option autoImplicit false

/-!
# Reading back what was written

Decoding the bytes of a text gives its characters (`decode_encode`). Bytes that are cut off somewhere
still give the characters in front of the cut, and at most replacement characters behind them
(`decode_take`).
-/

namespace PollSocket.Text

variable {ch : Char} {a b c : UInt8}

/-- The bytes of a text are those of its characters. -/
theorem encode_eq (s : String) : encode s = s.toList.flatMap String.utf8EncodeChar := by
  rw [encode, String.toUTF8_eq_toByteArray, ← String.utf8Encode_toList, List.utf8Encode]
  simp

/-! ## Decoding by characters -/

/-- Without merging, what was decoded before stands in front. -/
theorem decodeOnto_eq (acc : List Char) (broken : Bool) (skip : Nat) (bytes : List UInt8) :
    decodeOnto replacement false acc broken skip bytes =
      acc.reverse ++ decode (bytes.drop skip) := by
  have key : ∀ (bytes : List UInt8) (acc : List Char) (broken : Bool) (skip : Nat),
      decodeOnto replacement false acc broken skip bytes =
        acc.reverse ++ decodeOnto replacement false [] false 0 (bytes.drop skip) := by
    intro bytes
    induction bytes with
    | nil =>
      intro acc broken skip
      simp [decodeOnto]
    | cons a more ih =>
      intro acc broken skip
      cases skip with
      | succ skip =>
        rw [decodeOnto, ih, List.drop_succ_cons]
      | zero =>
        rw [List.drop_zero, decodeOnto, decodeOnto]
        cases leading? a more with
        | none =>
          simp only [Bool.false_and, Bool.false_eq_true, if_false]
          rw [ih, ih [replacement]]
          simp
        | some r =>
          dsimp only
          rw [ih, ih [r.1]]
          simp
  exact key bytes acc broken skip

@[simp] theorem decode_nil : decode [] = [] := rfl

theorem decode_cons (a : UInt8) (more : List UInt8) :
    decode (a :: more) = match leading? a more with
      | some (ch, n) => ch :: decode (more.drop n)
      | none => replacement :: decode more := by
  rw [decode, decodeOnto]
  cases leading? a more with
  | none => exact decodeOnto_eq [replacement] true 0 more
  | some r => exact decodeOnto_eq [r.1] false r.2 more

/-! ## Sequences, by the values of their bytes -/

theorem isTail_iff (b : UInt8) : isTail b = true ↔ 0x80 ≤ b.toNat ∧ b.toNat ≤ 0xBF := by
  simp [isTail, UInt8.le_iff_toNat_le]

theorem pair?_eq (a b : UInt8) :
    pair? a b = if 0xC2 ≤ a.toNat ∧ a.toNat ≤ 0xDF ∧ isTail b = true then
      some (Char.ofNat ((a.toNat - 0xC0) * 0x40 + tailBits b)) else none := by
  simp [pair?, UInt8.le_iff_toNat_le, and_assoc]

theorem triple?_eq (a b c : UInt8) :
    triple? a b c = if 0xE0 ≤ a.toNat ∧ a.toNat ≤ 0xEF ∧ isTail b = true ∧ isTail c = true ∧
        (a.toNat ≠ 0xE0 ∨ 0xA0 ≤ b.toNat) ∧ (a.toNat ≠ 0xED ∨ b.toNat ≤ 0x9F) then
      some (Char.ofNat ((a.toNat - 0xE0) * 0x1000 + tailBits b * 0x40 + tailBits c)) else none := by
  simp [triple?, UInt8.le_iff_toNat_le, and_assoc, ← UInt8.toNat_inj]

theorem quad?_eq (a b c d : UInt8) :
    quad? a b c d = if 0xF0 ≤ a.toNat ∧ a.toNat ≤ 0xF4 ∧ isTail b = true ∧ isTail c = true ∧
        isTail d = true ∧ (a.toNat ≠ 0xF0 ∨ 0x90 ≤ b.toNat) ∧ (a.toNat ≠ 0xF4 ∨ b.toNat ≤ 0x8F) then
      some (Char.ofNat ((a.toNat - 0xF0) * 0x40000 + tailBits b * 0x1000 + tailBits c * 0x40 +
        tailBits d)) else none := by
  simp [quad?, UInt8.le_iff_toNat_le, and_assoc, ← UInt8.toNat_inj]

theorem leading?_eq (a : UInt8) (more : List UInt8) :
    leading? a more = if a.toNat < 0x80 then some (Char.ofNat a.toNat, 0) else
      match more with
      | [] => none
      | [b] => (pair? a b).map (·, 1)
      | [b, c] => ((pair? a b).map (·, 1)).or ((triple? a b c).map (·, 2))
      | b :: c :: d :: _ => (((pair? a b).map (·, 1)).or ((triple? a b c).map (·, 2))).or
          ((quad? a b c d).map (·, 3)) := by
  have hlow : (a < 0x80) = (a.toNat < 0x80) := by rw [UInt8.lt_iff_toNat_lt]; rfl
  unfold leading?
  simp only [hlow]
  split
  · rfl
  · rcases more with - | ⟨b, - | ⟨c, - | ⟨d, more⟩⟩⟩
    · rfl
    · dsimp only
      cases pair? a b <;> rfl
    · dsimp only
      cases pair? a b <;> cases triple? a b c <;> rfl
    · dsimp only
      cases pair? a b <;> cases triple? a b c <;> rfl

theorem leading?_pair (ha : 0x80 ≤ a.toNat) (h : pair? a b = some ch) (more : List UInt8) :
    leading? a (b :: more) = some (ch, 1) := by
  rw [leading?_eq, if_neg (by omega)]
  rcases more with - | ⟨c, - | ⟨d, more⟩⟩ <;> simp [h]

theorem leading?_triple (ha : 0xDF < a.toNat) (h : triple? a b c = some ch) (more : List UInt8) :
    leading? a (b :: c :: more) = some (ch, 2) := by
  have hpair : pair? a b = none := by rw [pair?_eq, if_neg (by omega)]
  rw [leading?_eq, if_neg (by omega)]
  rcases more with - | ⟨d, more⟩ <;> simp [h, hpair]

theorem leading?_quad {d : UInt8} (ha : 0xEF < a.toNat) (h : quad? a b c d = some ch) (more : List UInt8) :
    leading? a (b :: c :: d :: more) = some (ch, 3) := by
  have hpair : pair? a b = none := by rw [pair?_eq, if_neg (by omega)]
  have htriple : triple? a b c = none := by rw [triple?_eq, if_neg (by omega)]
  rw [leading?_eq, if_neg (by omega)]
  simp [h, hpair, htriple]

theorem toNat_byte {n : Nat} (h : n < 256) : (UInt8.ofNat n).toNat = n := by
  simpa using h

/-- Reading starts with the character whose bytes come first. -/
theorem decode_utf8EncodeChar (c : Char) (rest : List UInt8) :
    decode (String.utf8EncodeChar c ++ rest) = c :: decode rest := by
  have hc : Char.ofNat c.val.toNat = c := Char.ofNat_toNat c
  have hvalid : c.val.toNat < 0xD800 ∨ 0xDFFF < c.val.toNat ∧ c.val.toNat < 0x110000 := c.valid
  have htail : ∀ n, (UInt8.ofNat (n % 64 + 128)).toNat = n % 64 + 128 :=
    fun n => toNat_byte (by omega)
  have hbits : ∀ n, tailBits (UInt8.ofNat (n % 64 + 128)) = n % 64 := by
    intro n
    have hbyte := htail n
    unfold tailBits
    omega
  have hcont : ∀ n, isTail (UInt8.ofNat (n % 64 + 128)) = true := by
    intro n
    rw [isTail_iff, htail]
    omega
  -- one case per length; the bits of each byte are computed back from its value
  unfold String.utf8EncodeChar
  dsimp only
  generalize c.val.toNat = v at hc hvalid ⊢
  split
  next h1 =>
    have hbyte : (UInt8.ofNat v).toNat = v := toNat_byte (by omega)
    rw [List.singleton_append, decode_cons, leading?_eq, hbyte, if_pos (by omega), hc]
    rfl
  next h1 =>
    split
    next h2 =>
      have hbyte : (UInt8.ofNat (v / 64 % 32 + 192)).toNat = v / 64 + 192 := by
        rw [toNat_byte (by omega)]
        omega
      have hpair : pair? (UInt8.ofNat (v / 64 % 32 + 192)) (UInt8.ofNat (v % 64 + 128)) = some c := by
        rw [pair?_eq, if_pos ⟨by omega, by omega, hcont v⟩, hbits, ← hc]
        congr 2
        omega
      rw [List.cons_append, List.singleton_append, decode_cons,
        leading?_pair (by omega) hpair]
      rfl
    next h2 =>
      split
      next h3 =>
        have hbyte : (UInt8.ofNat (v / 4096 % 16 + 224)).toNat = v / 4096 + 224 := by
          rw [toNat_byte (by omega)]
          omega
        have htriple : triple? (UInt8.ofNat (v / 4096 % 16 + 224))
            (UInt8.ofNat (v / 64 % 64 + 128)) (UInt8.ofNat (v % 64 + 128)) = some c := by
          rw [triple?_eq, htail, if_pos ⟨by omega, by omega, hcont _, hcont _, by omega,
            by omega⟩, hbits, hbits, ← hc]
          congr 2
          omega
        simp only [List.cons_append]
        rw [decode_cons, leading?_triple (by omega) htriple]
        rfl
      next h3 =>
        have hbyte : (UInt8.ofNat (v / 262144 % 8 + 240)).toNat = v / 262144 + 240 := by
          rw [toNat_byte (by omega)]
          omega
        have hquad : quad? (UInt8.ofNat (v / 262144 % 8 + 240)) (UInt8.ofNat (v / 4096 % 64 + 128))
            (UInt8.ofNat (v / 64 % 64 + 128)) (UInt8.ofNat (v % 64 + 128)) = some c := by
          rw [quad?_eq, htail, if_pos ⟨by omega, by omega, hcont _, hcont _, hcont _,
            by omega, by omega⟩, hbits, hbits, hbits, ← hc]
          congr 2
          omega
        simp only [List.cons_append]
        rw [decode_cons, leading?_quad (by omega) hquad]
        rfl

/-- The bytes of two texts are those of one after those of the other. -/
theorem encode_append (s t : String) : encode (s ++ t) = encode s ++ encode t := by
  rw [encode_eq, encode_eq, encode_eq, String.toList_append, List.flatMap_append]

/-- A text is read from its bytes, whatever bytes come behind it. -/
theorem decode_encode_append (s : String) (more : List UInt8) :
    decode (encode s ++ more) = s.toList ++ decode more := by
  rw [encode_eq]
  induction s.toList with
  | nil => rfl
  | cons c cs ih => rw [List.flatMap_cons, List.append_assoc, decode_utf8EncodeChar, ih, List.cons_append]

/-- Decoding inverts encoding. -/
theorem decode_encode (s : String) : decode (encode s) = s.toList := by
  have hall := decode_encode_append s []
  rwa [List.append_nil, decode_nil, List.append_nil] at hall

/-! ## Bytes that are cut off -/

/-- A continuation byte starts no character. -/
theorem leading?_tail (h : isTail b = true) (more : List UInt8) : leading? b more = none := by
  rw [isTail_iff] at h
  have hpair : ∀ c, pair? b c = none := fun c => by rw [pair?_eq, if_neg (by omega)]
  have htriple : ∀ c d, triple? b c d = none := fun c d => by rw [triple?_eq, if_neg (by omega)]
  have hquad : ∀ c d e, quad? b c d e = none := fun c d e => by rw [quad?_eq, if_neg (by omega)]
  rw [leading?_eq, if_neg (by omega)]
  rcases more with - | ⟨c, - | ⟨d, - | ⟨e, more⟩⟩⟩ <;> simp [hpair, htriple, hquad]

theorem decode_tails {bytes : List UInt8} (h : ∀ b ∈ bytes, isTail b = true) :
    decode bytes = List.replicate bytes.length replacement := by
  induction bytes with
  | nil => rfl
  | cons b more ih =>
    rw [decode_cons, leading?_tail (h b List.mem_cons_self),
      ih fun c hc => h c (List.mem_cons_of_mem b hc)]
    rfl

/-- How many bytes a sequence has depends on its own bytes only. -/
theorem leading?_take (a : UInt8) (more : List UInt8) (n : Nat) :
    leading? a (more.take n) = (leading? a more).filter fun r => r.2 ≤ n := by
  by_cases ha : a.toNat < 0x80
  · simp [leading?_eq, ha, Option.filter]
  · rw [leading?_eq, leading?_eq, if_neg ha, if_neg ha]
    rcases more with - | ⟨b, - | ⟨c, - | ⟨d, more⟩⟩⟩
    · simp
    · rcases n with - | n <;> cases hp : pair? a b <;> simp [hp, Option.filter]
    · rcases n with - | - | n <;> cases hp : pair? a b <;> cases ht : triple? a b c <;>
        simp [hp, ht, Option.filter]
    · rcases n with - | - | - | n <;> cases hp : pair? a b <;> cases ht : triple? a b c <;>
        cases hq : quad? a b c d <;> simp [hp, ht, hq, Option.filter]

theorem isTail_of_pair? (h : pair? a b = some ch) : isTail b = true := by
  rw [pair?_eq] at h
  split at h
  next hand => exact hand.2.2
  next => cases h

theorem isTail_of_triple? (h : triple? a b c = some ch) : isTail b = true ∧ isTail c = true := by
  rw [triple?_eq] at h
  split at h
  next hand => exact ⟨hand.2.2.1, hand.2.2.2.1⟩
  next => cases h

theorem isTail_of_quad? {d : UInt8} (h : quad? a b c d = some ch) :
    isTail b = true ∧ isTail c = true ∧ isTail d = true := by
  rw [quad?_eq] at h
  split at h
  next hand => exact ⟨hand.2.2.1, hand.2.2.2.1, hand.2.2.2.2.1⟩
  next => cases h

/-- All bytes of a sequence but the first are continuation bytes. -/
theorem leading?_tails {more : List UInt8} {k : Nat} (h : leading? a more = some (ch, k)) :
    ∀ b ∈ more.take k, isTail b = true := by
  rw [leading?_eq] at h
  split at h
  · cases h
    simp
  · rcases more with - | ⟨b, - | ⟨c, - | ⟨d, more⟩⟩⟩
    · simp
    · cases hp : pair? a b <;> simp [hp] at h
      simpa [← h.2] using isTail_of_pair? hp
    · cases hp : pair? a b <;> cases ht : triple? a b c <;> simp [hp, ht] at h
      · simpa [← h.2] using isTail_of_triple? ht
      · simpa [← h.2] using isTail_of_pair? hp
      · simpa [← h.2] using isTail_of_pair? hp
    · cases hp : pair? a b <;> cases ht : triple? a b c <;> cases hq : quad? a b c d <;>
        simp [hp, ht, hq] at h
      · simpa [← h.2] using isTail_of_quad? hq
      · simpa [← h.2] using isTail_of_triple? ht
      · simpa [← h.2] using isTail_of_triple? ht
      all_goals simpa [← h.2] using isTail_of_pair? hp

/-- Bytes that are cut off: the characters in front of the cut, then replacement characters. -/
theorem decode_take (bytes : List UInt8) (n : Nat) :
    ∃ front back j, decode bytes = front ++ back ∧
      decode (bytes.take n) = front ++ List.replicate j replacement := by
  -- by induction on the length, one sequence at a time
  induction hlength : bytes.length using Nat.strong_induction_on generalizing bytes n with
  | _ m ih =>
    rcases bytes with - | ⟨a, more⟩
    · exact ⟨[], [], 0, rfl, by simp⟩
    · rcases n with - | n
      · exact ⟨[], decode (a :: more), 0, rfl, by simp⟩
      · rw [List.take_succ_cons, decode_cons, decode_cons, leading?_take]
        cases hlead : leading? a more with
        | none =>
          obtain ⟨front, back, j, hfull, hcut⟩ := ih more.length (by simp at hlength; omega) more n rfl
          exact ⟨replacement :: front, back, j, by simp [hfull], by simp [hcut]⟩
        | some r =>
          obtain ⟨ch, k⟩ := r
          by_cases hk : k ≤ n
          · obtain ⟨front, back, j, hfull, hcut⟩ :=
              ih (more.drop k).length (by simp at hlength ⊢; omega) (more.drop k) (n - k) rfl
            refine ⟨ch :: front, back, j, by simp [hfull], ?_⟩
            rw [List.take_drop, Nat.add_sub_cancel' hk] at hcut
            simp [Option.filter, hk, hcut]
          · -- the cut is inside the sequence: none of the bytes left is the start of a character
            have htails : ∀ b ∈ more.take n, isTail b = true := by
              intro b hb
              exact leading?_tails hlead b ((List.take_subset_take_left more (by omega)) hb)
            refine ⟨[], ch :: decode (more.drop k), (more.take n).length + 1, rfl, ?_⟩
            simp [Option.filter, hk, decode_tails htails, List.replicate_succ]

end PollSocket.Text
