import Backjump.Proofs.Traversal
import Backjump.Text.Utf8
import Mathlib.Data.String.Basic

/-! UTF-8 is read exactly. A character comes out of its bytes whatever follows them, and
what comes out was spelled by its bytes: no other bytes, overlong or of a surrogate,
stand for it. So the bytes that can be read are those of a text, and they are read as
that text. -/
namespace Backjump.Text.Utf8

open String

/-- The bytes of a text. -/
def encode (text : List Char) : List Nat := (text.flatMap utf8EncodeChar).map UInt8.toNat

/-- The bytes of a character by its scalar value. -/
def spelling (n : Nat) : List Nat :=
  if n ≤ 0x7f then [n]
  else if n ≤ 0x7ff then [n / 64 + 0xc0, n % 64 + 0x80]
  else if n ≤ 0xffff then [n / 4096 + 0xe0, n / 64 % 64 + 0x80, n % 64 + 0x80]
  else [n / 262144 + 0xf0, n / 4096 % 64 + 0x80, n / 64 % 64 + 0x80, n % 64 + 0x80]

/-- The character after one more of its bytes. -/
def Pending.next (p : Pending) (byte : Nat) : Pending :=
  { p with seen := p.seen + 1, wanted := p.wanted - 1, low := 0x80, high := 0xbf,
           value := p.value * 64 + (byte - 0x80) }

/-- The bytes that a character still wants, and the scalar value that they give it. -/
inductive Completes : Pending → List Nat → Nat → Prop where
  | last {p : Pending} {byte : Nat} : p.low ≤ byte ∧ byte ≤ p.high → p.wanted ≤ 1 →
      Completes p [byte] (p.value * 64 + (byte - 0x80))
  | next {p : Pending} {byte value : Nat} {tail : List Nat} : p.low ≤ byte ∧ byte ≤ p.high →
      1 < p.wanted → Completes (p.next byte) tail value → Completes p (byte :: tail) value

variable {c : Char} {n position byte value : Nat} {bytes tail rest : List Nat} {text : List Char}
  {p : Pending}

/-- Scalar values leave out the surrogates. -/
def IsScalar (n : Nat) : Prop := n < 0xd800 ∨ 0xdfff < n ∧ n < 0x110000

theorem isScalar_toNat (c : Char) : IsScalar c.toNat := c.valid

theorem toNat_ofNat (scalar : IsScalar n) : (Char.ofNat n).toNat = n := by
  rw [Char.ofNat, dif_pos (show n.isValidChar from scalar)]
  rfl

theorem map_utf8EncodeChar (c : Char) : (utf8EncodeChar c).map UInt8.toNat = spelling c.toNat := by
  have scalar := isScalar_toNat c
  have same : c.toNat = c.val.toNat := rfl
  have word {n : Nat} (small : n < 256) : (UInt8.ofNat n).toNat = n := Nat.mod_eq_of_lt small
  rw [same] at scalar ⊢
  rw [utf8EncodeChar, spelling]
  generalize c.val.toNat = n at scalar ⊢
  rw [IsScalar] at scalar
  -- In the range of each width the leading byte is not cut off.
  split_ifs
  · rw [List.map_singleton, word (by omega)]
  · have lead : n / 64 % 32 = n / 64 := Nat.mod_eq_of_lt (by omega)
    rw [List.map_cons, List.map_singleton, lead, word (by omega), word (by omega)]
  · have lead : n / 4096 % 16 = n / 4096 := Nat.mod_eq_of_lt (by omega)
    rw [List.map_cons, List.map_cons, List.map_singleton, lead, word (by omega), word (by omega),
      word (by omega)]
  · have lead : n / 262144 % 8 = n / 262144 := Nat.mod_eq_of_lt (by omega)
    rw [List.map_cons, List.map_cons, List.map_cons, List.map_singleton, lead, word (by omega),
      word (by omega), word (by omega), word (by omega)]

theorem encode_cons (c : Char) (text : List Char) :
    encode (c :: text) = spelling c.toNat ++ encode text := by
  rw [encode, List.flatMap_cons, List.map_append, map_utf8EncodeChar, encode]

theorem Completes.decodeFrom_append (completes : Completes p tail value) (position : Nat) :
    decodeFrom position (some p) (tail ++ rest) =
      (decodeFrom (position + tail.length) none rest).map (Char.ofNat value :: ·) := by
  induction completes generalizing position with
  | last fits only =>
    rw [List.singleton_append, decodeFrom, if_pos fits]
    exact if_pos only
  | @next p byte value tail fits more _ ih =>
    rw [List.cons_append, decodeFrom, if_pos fits]
    refine (if_neg (Nat.not_le.mpr more)).trans ?_
    rw [List.length_cons, Nat.add_comm tail.length, ← Nat.add_assoc]
    exact ih (position + 1)

/-- What was read of a character begun is what completes it. -/
theorem exists_completes (read : decodeFrom position (some p) bytes = .ok text) :
    ∃ tail value rest later text', bytes = tail ++ rest ∧ Completes p tail value ∧
      text = Char.ofNat value :: text' ∧ decodeFrom later none rest = .ok text' := by
  induction bytes generalizing position p with
  | nil => contradiction
  | cons byte rest ih =>
    rw [decodeFrom] at read
    split at read
    · rename_i fits
      dsimp only at read
      split at read
      · rename_i only
        obtain ⟨text', answered, rfl⟩ := exists_of_map read
        exact ⟨[byte], _, rest, _, text', rfl, .last fits only, rfl, answered⟩
      · rename_i more
        obtain ⟨tail, value, rest, later, text', rfl, completes, spelled, answered⟩ := ih read
        exact ⟨byte :: tail, value, rest, later, text', rfl, .next fits (Nat.not_le.mp more) completes,
          spelled, answered⟩
    · contradiction

namespace Completes

theorem last_of (fits : p.low ≤ byte ∧ byte ≤ p.high) (only : p.wanted ≤ 1)
    (spelled : p.value * 64 + (byte - 0x80) = value) : Completes p [byte] value :=
  spelled ▸ .last fits only

theorem of_one (completes : Completes p tail value) (one : p.wanted = 1) :
    ∃ b, tail = [b] ∧ (p.low ≤ b ∧ b ≤ p.high) ∧ value = p.value * 64 + (b - 0x80) := by
  cases completes with
  | last fits => exact ⟨_, rfl, fits, rfl⟩
  | next _ more => omega

theorem of_more (completes : Completes p tail value) (more : 1 < p.wanted) :
    ∃ b later, tail = b :: later ∧ (p.low ≤ b ∧ b ≤ p.high) ∧ Completes (p.next b) later value := by
  cases completes with
  | last _ only => omega
  | next fits _ completes => exact ⟨_, _, rfl, fits, completes⟩

end Completes

theorem ofLead?_two (range : 0xc2 ≤ byte ∧ byte ≤ 0xdf) : Pending.ofLead? position byte =
    some ⟨byte, position, 1, 1, 0x80, 0xbf, byte - 0xc0⟩ := if_pos range

theorem ofLead?_three (range : 0xe0 ≤ byte ∧ byte ≤ 0xef) : Pending.ofLead? position byte =
    some ⟨byte, position, 1, 2, if byte = 0xe0 then 0xa0 else 0x80,
      if byte = 0xed then 0x9f else 0xbf, byte - 0xe0⟩ :=
  (if_neg (by omega)).trans (if_pos range)

theorem ofLead?_four (range : 0xf0 ≤ byte ∧ byte ≤ 0xf4) : Pending.ofLead? position byte =
    some ⟨byte, position, 1, 3, if byte = 0xf0 then 0x90 else 0x80,
      if byte = 0xf4 then 0x8f else 0xbf, byte - 0xf0⟩ :=
  (if_neg (by omega)).trans ((if_neg (by omega)).trans (if_pos range))

/-- A byte that begins a character lies in the range of its width. -/
theorem range_of_ofLead? (begun : Pending.ofLead? position byte = some p) :
    0xc2 ≤ byte ∧ byte ≤ 0xdf ∨ 0xe0 ≤ byte ∧ byte ≤ 0xef ∨ 0xf0 ≤ byte ∧ byte ≤ 0xf4 := by
  rw [Pending.ofLead?] at begun
  split at begun
  · exact .inl ‹_›
  · split at begun
    · exact .inr (.inl ‹_›)
    · split at begun
      · exact .inr (.inr ‹_›)
      · contradiction

/-- A scalar value beyond the plain ones is spelled by a leading byte and what completes it. -/
theorem exists_lead (scalar : IsScalar n) (wide : 0x7f < n) (position : Nat) :
    ∃ byte tail p, spelling n = byte :: tail ∧ ¬byte < 0x80 ∧
      Pending.ofLead? position byte = some p ∧ Completes p tail n := by
  rw [IsScalar] at scalar
  rw [spelling, if_neg (by omega)]
  split_ifs
  · refine ⟨_, _, _, rfl, by omega, ofLead?_two (by omega), ?_⟩
    refine .last_of (by dsimp only; omega) (Nat.le_refl 1) ?_
    dsimp only
    omega
  · refine ⟨_, _, _, rfl, by omega, ofLead?_three (by omega), ?_⟩
    refine .next (by dsimp only; split_ifs <;> omega) (by decide : 1 < 2) ?_
    refine .last_of (by dsimp only [Pending.next]; omega) (Nat.le_refl 1) ?_
    dsimp only [Pending.next]
    omega
  · refine ⟨_, _, _, rfl, by omega, ofLead?_four (by omega), ?_⟩
    refine .next (by dsimp only; split_ifs <;> omega) (by decide : 1 < 3) ?_
    refine .next (by dsimp only [Pending.next]; omega) (by decide : 1 < 2) ?_
    refine .last_of (by dsimp only [Pending.next]; omega) (Nat.le_refl 1) ?_
    dsimp only [Pending.next]
    omega

/-- What completes a leading byte spells a scalar value, together with it. -/
theorem spelling_eq (begun : Pending.ofLead? position byte = some p)
    (completes : Completes p tail n) : IsScalar n ∧ 0x7f < n ∧ spelling n = byte :: tail := by
  -- The bounds on the second byte exclude what is shorter, a surrogate and what is too large.
  obtain range | range | range := range_of_ofLead? begun
  · rw [ofLead?_two range, Option.some.injEq] at begun
    subst begun
    obtain ⟨b, rfl, fits, value⟩ := completes.of_one rfl
    dsimp only at fits value
    have wide : 0x7f < n ∧ n ≤ 0x7ff := by omega
    refine ⟨.inl (by omega), wide.1, ?_⟩
    rw [spelling, if_neg (by omega), if_pos wide.2]
    congr 2 <;> omega
  · rw [ofLead?_three range, Option.some.injEq] at begun
    subst begun
    obtain ⟨b, _, rfl, first, completes⟩ := completes.of_more (by decide : 1 < 2)
    obtain ⟨b', rfl, last, value⟩ := completes.of_one rfl
    dsimp only [Pending.next] at first last value
    have wide : 0x7ff < n ∧ n ≤ 0xffff := by split_ifs at first <;> omega
    have second' : 0x80 ≤ b ∧ b ≤ 0xbf := by split_ifs at first <;> omega
    refine ⟨?_, by omega, ?_⟩
    · rw [IsScalar]
      split_ifs at first <;> omega
    · rw [spelling, if_neg (by omega), if_neg (by omega), if_pos wide.2]
      congr 1
      · omega
      · congr 2 <;> omega
  · rw [ofLead?_four range, Option.some.injEq] at begun
    subst begun
    obtain ⟨b, _, rfl, first, completes⟩ := completes.of_more (by decide : 1 < 3)
    obtain ⟨b', _, rfl, third, completes⟩ := completes.of_more (by decide : 1 < 2)
    obtain ⟨b'', rfl, last, value⟩ := completes.of_one rfl
    dsimp only [Pending.next] at first third last value
    have wide : 0xffff < n ∧ n < 0x110000 := by split_ifs at first <;> omega
    have second' : 0x80 ≤ b ∧ b ≤ 0xbf := by split_ifs at first <;> omega
    refine ⟨.inr (by omega), by omega, ?_⟩
    rw [spelling, if_neg (by omega), if_neg (by omega), if_neg (by omega)]
    congr 1
    · omega
    · congr 1
      · omega
      · congr 2 <;> omega

theorem decodeFrom_encode (position : Nat) (text : List Char) :
    decodeFrom position none (encode text) = .ok text := by
  induction text generalizing position with
  | nil => rfl
  | cons c text ih =>
    rw [encode_cons]
    by_cases plain : c.toNat ≤ 0x7f
    · rw [spelling, if_pos plain, List.singleton_append, decodeFrom,
        if_pos (Nat.lt_succ_of_le plain), ih, Char.ofNat_toNat]
      rfl
    · obtain ⟨byte, tail, p, spelled, high, begun, completes⟩ :=
        exists_lead (isScalar_toNat c) (Nat.not_le.mp plain) position
      rw [spelled, List.cons_append, decodeFrom, if_neg high, begun]
      dsimp only
      rw [completes.decodeFrom_append, ih, Char.ofNat_toNat]
      rfl

theorem eq_encode (read : decodeFrom position none bytes = .ok text) : bytes = encode text := by
  induction text generalizing position bytes with
  | nil =>
    cases bytes with
    | nil => rfl
    | cons byte rest =>
      rw [decodeFrom] at read
      split at read
      · obtain ⟨_, _, empty⟩ := exists_of_map read
        contradiction
      · split at read
        · contradiction
        · obtain ⟨_, _, _, _, _, _, _, empty, _⟩ := exists_completes read
          contradiction
  | cons c text ih =>
    cases bytes with
    | nil =>
      rw [decodeFrom] at read
      cases read
    | cons byte rest =>
      rw [decodeFrom] at read
      split at read
      · rename_i plain
        obtain ⟨text', answered, spelled⟩ := exists_of_map read
        obtain ⟨rfl, rfl⟩ := List.cons.inj spelled
        rw [encode_cons, toNat_ofNat (.inl (by omega)), spelling, if_pos (by omega),
          List.singleton_append, ih answered]
      · split at read
        · contradiction
        · rename_i p begun
          obtain ⟨tail, value, rest', later, text', rfl, completes, spelled, answered⟩ :=
            exists_completes read
          obtain ⟨rfl, rfl⟩ := List.cons.inj spelled
          obtain ⟨scalar, _, spelled⟩ := spelling_eq begun completes
          rw [encode_cons, toNat_ofNat scalar, spelled, ih answered, List.cons_append]

/-- Bytes are read as a text when they are the bytes of that text, and of no other. -/
theorem decode_eq_ok_iff : decode bytes = .ok text ↔ bytes = encode text :=
  ⟨eq_encode, fun spelled => spelled ▸ decodeFrom_encode 0 text⟩

theorem toList_loop (bytes : ByteArray) (i : Nat) (seen : List UInt8) :
    ByteArray.toList.loop bytes i seen = seen.reverse ++ bytes.data.toList.drop i := by
  fun_induction ByteArray.toList.loop bytes i seen with
  | case1 i seen inside ih =>
    have size : i < bytes.data.toList.length := inside
    have here : bytes.get! i = bytes.data.toList[i] := getElem!_pos bytes.data i inside
    rw [ih, here, List.drop_eq_getElem_cons size, List.reverse_cons, List.append_assoc,
      List.singleton_append]
  | case2 i seen outside =>
    have past : bytes.data.toList.length ≤ i := Nat.le_of_not_lt outside
    rw [List.drop_eq_nil_of_le past, List.append_nil]

theorem toList_bytes (bytes : ByteArray) : bytes.toList = bytes.data.toList :=
  toList_loop bytes 0 []

theorem encode_toList (text : String) :
    encode text.toList = text.toByteArray.toList.map UInt8.toNat := by
  rw [toList_bytes, ← utf8Encode_toList, List.utf8Encode, List.toList_data_toByteArray, encode]

/-- The bytes of a text are read as it. -/
theorem decode_toByteArray (text : String) :
    decode (text.toByteArray.toList.map UInt8.toNat) = .ok text.toList :=
  decode_eq_ok_iff.mpr (encode_toList text).symm

/-- What can be read is a text for the core library too. -/
theorem isValidUTF8_of_decode {content : ByteArray}
    (read : decode (content.toList.map UInt8.toNat) = .ok text) : content.IsValidUTF8 := by
  have same : content.data.toList = text.flatMap utf8EncodeChar := by
    refine List.map_injective_iff.mpr (fun _ _ => UInt8.toNat_inj.mp) ?_
    rw [← toList_bytes]
    exact decode_eq_ok_iff.mp read
  refine ⟨text, ByteArray.ext (Array.toList_inj.mp ?_)⟩
  rw [same, List.utf8Encode, List.toList_data_toByteArray]

end Backjump.Text.Utf8
