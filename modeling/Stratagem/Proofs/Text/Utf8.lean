import Mathlib
import Stratagem.Text.Utf8

/-!
# Reading bytes is the inverse of writing them

Bytes are read as a text exactly if they are the bytes of that text (`decode_eq_ok_iff`). So what is
refused is what no text is written as: overlong forms, surrogates and everything above the last code
point.

The proof is about one character: its first byte announces the others, and these are continuation
bytes of which the first is in the announced bounds (`encodeChar_eq_iff`). Both directions are
arithmetic in the four ranges of code points.
-/

namespace Stratagem.Text.Utf8

/-- `Continues count least greatest more`: `more` is a list of `count` continuation bytes, the first
of them between `least` and `greatest`. -/
def Continues : (count least greatest : Nat) → List UInt8 → Prop
  | 0, _, _, more => more = []
  | count + 1, least, greatest, more =>
    ∃ byte rest, more = byte :: rest ∧ (least ≤ byte.toNat ∧ byte.toNat ≤ greatest) ∧
      Continues count 0x80 0xBF rest

variable {count least greatest : Nat} {more : List UInt8}

theorem Continues.length (h : Continues count least greatest more) : more.length = count := by
  induction count generalizing least greatest more with
  | zero =>
    obtain rfl : more = [] := h
    rfl
  | succ count ih =>
    obtain ⟨byte, rest, rfl, -, hrest⟩ := h
    rw [List.length_cons, ih hrest]

/-- Continuation bytes are found in front of any others. -/
theorem Continues.found (h : Continues count least greatest more) (rest : List UInt8) :
    continuations count least greatest (more ++ rest) = more := by
  induction count generalizing least greatest more with
  | zero =>
    obtain rfl : more = [] := h
    rw [continuations]
  | succ count ih =>
    obtain ⟨byte, others, rfl, hbyte, hothers⟩ := h
    rw [List.cons_append, continuations, if_pos hbyte, ih hothers]

/-- As many continuation bytes as announced are such, and the rest comes behind them. -/
theorem continues_of_length (count least greatest : Nat) (bytes : List UInt8)
    (h : (continuations count least greatest bytes).length = count) :
    Continues count least greatest (continuations count least greatest bytes) ∧
      ∃ rest, bytes = continuations count least greatest bytes ++ rest := by
  induction count generalizing least greatest bytes with
  | zero => exact ⟨by rw [continuations]; rfl, bytes, by rw [continuations, List.nil_append]⟩
  | succ count ih =>
    cases bytes with
    | nil => simp [continuations] at h
    | cons byte bytes =>
      by_cases hbyte : least ≤ byte.toNat ∧ byte.toNat ≤ greatest
      · rw [continuations, if_pos hbyte] at h ⊢
        obtain ⟨hothers, rest, hrest⟩ := ih 0x80 0xBF bytes (Nat.succ.inj h)
        exact ⟨⟨byte, _, rfl, hbyte, hothers⟩, rest, by rw [List.cons_append, ← hrest]⟩
      · rw [continuations, if_neg hbyte] at h
        simp at h

/-! ## One character -/

/-- A continuation byte. -/
def IsTail (byte : UInt8) : Prop := 0x80 ≤ byte.toNat ∧ byte.toNat ≤ 0xBF

/-- `Sequence byte more n`: the bytes of the code point `n`, the first of them apart. The bounds on
the second byte rule out overlong forms, surrogates and what is above the last code point. -/
inductive Sequence : UInt8 → List UInt8 → Nat → Prop
  | one {a : UInt8} (ha : a.toNat < 0x80) : Sequence a [] a.toNat
  | two {a b : UInt8} (ha : 0xC2 ≤ a.toNat ∧ a.toNat < 0xE0) (hb : IsTail b) :
    Sequence a [b] ((a.toNat - 0xC0) * 64 + (b.toNat - 0x80))
  | three {a b c : UInt8} (ha : 0xE0 ≤ a.toNat ∧ a.toNat < 0xF0) (hb : IsTail b)
    (hleast : a.toNat = 0xE0 → 0xA0 ≤ b.toNat) (hgreatest : a.toNat = 0xED → b.toNat ≤ 0x9F)
    (hc : IsTail c) :
    Sequence a [b, c] (((a.toNat - 0xE0) * 64 + (b.toNat - 0x80)) * 64 + (c.toNat - 0x80))
  | four {a b c d : UInt8} (ha : 0xF0 ≤ a.toNat ∧ a.toNat < 0xF5) (hb : IsTail b)
    (hleast : a.toNat = 0xF0 → 0x90 ≤ b.toNat) (hgreatest : a.toNat = 0xF4 → b.toNat ≤ 0x8F)
    (hc : IsTail c) (hd : IsTail d) :
    Sequence a [b, c, d]
      ((((a.toNat - 0xF0) * 64 + (b.toNat - 0x80)) * 64 + (c.toNat - 0x80)) * 64 +
        (d.toNat - 0x80))

theorem ofNat_eq {n : Nat} {byte : UInt8} (h : n = byte.toNat) : UInt8.ofNat n = byte := by
  rw [h, UInt8.ofNat_toNat]

theorem toNat_ofNat_of_lt {n : Nat} (h : n < 256) : (UInt8.ofNat n).toNat = n := by
  rw [UInt8.toNat_ofNat']
  exact Nat.mod_eq_of_lt h

/-- **What a character is written as is the sequence of its code point.** -/
theorem sequence_of_encodeChar {c : Char} {byte : UInt8}
    (h : String.utf8EncodeChar c = byte :: more) : Sequence byte more c.toNat := by
  have hvalid : c.toNat < 0xD800 ∨ 0xDFFF < c.toNat ∧ c.toNat < 0x110000 := c.valid
  have hv : c.val.toNat = c.toNat := rfl
  unfold String.utf8EncodeChar at h
  simp only [hv] at h
  generalize c.toNat = v at *
  split at h
  next h₁ =>
    obtain ⟨rfl, rfl⟩ := List.cons.inj h
    have ha := toNat_ofNat_of_lt (show v < 256 by omega)
    have hone : Sequence (UInt8.ofNat v) [] (UInt8.ofNat v).toNat := .one (by omega)
    rwa [ha] at hone
  next h₁ =>
    split at h
    next h₂ =>
      obtain ⟨rfl, rfl⟩ := List.cons.inj h
      have ha := toNat_ofNat_of_lt (show v / 64 % 32 + 192 < 256 by omega)
      have hb := toNat_ofNat_of_lt (show v % 64 + 128 < 256 by omega)
      generalize UInt8.ofNat (v / 64 % 32 + 192) = a at *
      generalize UInt8.ofNat (v % 64 + 128) = b at *
      have htwo : Sequence a [b] _ := .two (by omega) ⟨by omega, by omega⟩
      convert htwo using 1
      omega
    next h₂ =>
      split at h
      next h₃ =>
        obtain ⟨rfl, rfl⟩ := List.cons.inj h
        have ha := toNat_ofNat_of_lt (show v / 4096 % 16 + 224 < 256 by omega)
        have hb := toNat_ofNat_of_lt (show v / 64 % 64 + 128 < 256 by omega)
        have hc := toNat_ofNat_of_lt (show v % 64 + 128 < 256 by omega)
        generalize UInt8.ofNat (v / 4096 % 16 + 224) = a at *
        generalize UInt8.ofNat (v / 64 % 64 + 128) = b at *
        generalize UInt8.ofNat (v % 64 + 128) = c at *
        have hthree : Sequence a [b, c] _ :=
          .three (by omega) ⟨by omega, by omega⟩ (by omega) (by omega) ⟨by omega, by omega⟩
        convert hthree using 1
        omega
      next h₃ =>
        obtain ⟨rfl, rfl⟩ := List.cons.inj h
        have ha := toNat_ofNat_of_lt (show v / 262144 % 8 + 240 < 256 by omega)
        have hb := toNat_ofNat_of_lt (show v / 4096 % 64 + 128 < 256 by omega)
        have hc := toNat_ofNat_of_lt (show v / 64 % 64 + 128 < 256 by omega)
        have hd := toNat_ofNat_of_lt (show v % 64 + 128 < 256 by omega)
        generalize UInt8.ofNat (v / 262144 % 8 + 240) = a at *
        generalize UInt8.ofNat (v / 4096 % 64 + 128) = b at *
        generalize UInt8.ofNat (v / 64 % 64 + 128) = c at *
        generalize UInt8.ofNat (v % 64 + 128) = d at *
        have hfour : Sequence a [b, c, d] _ :=
          .four (by omega) ⟨by omega, by omega⟩ (by omega) (by omega) ⟨by omega, by omega⟩
            ⟨by omega, by omega⟩
        convert hfour using 1
        omega

/-- A sequence has the code point of a character: no surrogate, and not above the last one. -/
theorem Sequence.isValidChar {byte : UInt8} {n : Nat} (h : Sequence byte more n) :
    n.isValidChar := by
  rw [Nat.isValidChar]
  cases h with
  | one ha => omega
  | two ha hb =>
    unfold IsTail at hb
    omega
  | three ha hb hleast hgreatest hc =>
    unfold IsTail at hb hc
    omega
  | four ha hb hleast hgreatest hc hd =>
    unfold IsTail at hb hc hd
    omega

/-- **A sequence is what the character of its code point is written as.** -/
theorem encodeChar_of_sequence {byte : UInt8} {n : Nat} (h : Sequence byte more n) :
    String.utf8EncodeChar (Char.ofNat n) = byte :: more := by
  have hv : (Char.ofNat n).val.toNat = n := by
    have := Char.toNat_ofNat n
    rwa [if_pos h.isValidChar] at this
  unfold String.utf8EncodeChar
  simp only [hv]
  cases h with
  | one ha => rw [if_pos (by omega), UInt8.ofNat_toNat]
  | two ha hb =>
    unfold IsTail at hb
    rw [if_neg (by omega), if_pos (by omega)]
    simp only [List.cons.injEq, and_true]
    exact ⟨ofNat_eq (by omega), ofNat_eq (by omega)⟩
  | three ha hb hleast hgreatest hc =>
    unfold IsTail at hb hc
    rw [if_neg (by omega), if_neg (by omega), if_pos (by omega)]
    simp only [List.cons.injEq, and_true]
    exact ⟨ofNat_eq (by omega), ofNat_eq (by omega), ofNat_eq (by omega)⟩
  | four ha hb hleast hgreatest hc hd =>
    unfold IsTail at hb hc hd
    rw [if_neg (by omega), if_neg (by omega), if_neg (by omega)]
    simp only [List.cons.injEq, and_true]
    exact ⟨ofNat_eq (by omega), ofNat_eq (by omega), ofNat_eq (by omega), ofNat_eq (by omega)⟩

/-- `Announces byte more n`: a first byte announces the bytes `more`, and together they are the code
point `n`. -/
def Announces (byte : UInt8) (more : List UInt8) (n : Nat) : Prop :=
  ∃ lead, lead? byte = some lead ∧ Continues lead.count lead.least lead.greatest more ∧
    codePoint lead.bits more = n

/-- **A first byte announces exactly the sequences that it starts.** -/
theorem announces_iff_sequence {byte : UInt8} {n : Nat} :
    Announces byte more n ↔ Sequence byte more n := by
  constructor
  · rintro ⟨lead, hlead, hmore, rfl⟩
    unfold lead? at hlead
    dsimp only at hlead
    split at hlead
    next h₁ =>
      obtain rfl := Option.some.inj hlead
      obtain rfl : more = [] := hmore
      exact .one h₁
    next h₁ =>
      split at hlead
      next => simp at hlead
      next h₂ =>
        split at hlead
        next h₃ =>
          obtain rfl := Option.some.inj hlead
          obtain ⟨b, _, rfl, hb, rfl⟩ := hmore
          exact .two (by omega) hb
        next h₃ =>
          split at hlead
          next h₄ =>
            obtain rfl := Option.some.inj hlead
            obtain ⟨b, _, rfl, ⟨hleast, hgreatest⟩, c, _, rfl, hc, rfl⟩ := hmore
            dsimp only at hleast hgreatest
            exact .three (by omega) ⟨by split at hleast <;> omega, by split at hgreatest <;> omega⟩
              (fun ha => by rwa [if_pos ha] at hleast)
              (fun ha => by rwa [if_pos ha] at hgreatest) hc
          next h₄ =>
            split at hlead
            next h₅ =>
              obtain rfl := Option.some.inj hlead
              obtain ⟨b, _, rfl, ⟨hleast, hgreatest⟩, c, _, rfl, hc, d, _, rfl, hd, rfl⟩ := hmore
              dsimp only at hleast hgreatest
              exact .four (by omega)
                ⟨by split at hleast <;> omega, by split at hgreatest <;> omega⟩
                (fun ha => by rwa [if_pos ha] at hleast)
                (fun ha => by rwa [if_pos ha] at hgreatest) hc hd
            next => simp at hlead
  · intro h
    cases h with
    | one ha => exact ⟨_, if_pos ha, rfl, rfl⟩
    | @two b ha hb =>
      refine ⟨⟨byte.toNat - 0xC0, 1, 0x80, 0xBF⟩, ?_, ⟨b, [], rfl, hb, rfl⟩, rfl⟩
      unfold lead?
      dsimp only
      rw [if_neg (by omega), if_neg (by omega), if_pos ha.2]
    | @three b c ha hb hleast hgreatest hc =>
      unfold IsTail at hb
      refine ⟨⟨byte.toNat - 0xE0, 2, if byte.toNat = 0xE0 then 0xA0 else 0x80,
        if byte.toNat = 0xED then 0x9F else 0xBF⟩, ?_,
        ⟨b, [c], rfl, ⟨?_, ?_⟩, c, [], rfl, hc, rfl⟩, rfl⟩
      · unfold lead?
        dsimp only
        rw [if_neg (by omega), if_neg (by omega), if_neg (by omega), if_pos ha.2]
      · dsimp only
        split <;> omega
      · dsimp only
        split <;> omega
    | @four b c d ha hb hleast hgreatest hc hd =>
      unfold IsTail at hb
      refine ⟨⟨byte.toNat - 0xF0, 3, if byte.toNat = 0xF0 then 0x90 else 0x80,
        if byte.toNat = 0xF4 then 0x8F else 0xBF⟩, ?_,
        ⟨b, [c, d], rfl, ⟨?_, ?_⟩, c, [d], rfl, hc, d, [], rfl, hd, rfl⟩, rfl⟩
      · unfold lead?
        dsimp only
        rw [if_neg (by omega), if_neg (by omega), if_neg (by omega), if_neg (by omega),
          if_pos ha.2]
      · dsimp only
        split <;> omega
      · dsimp only
        split <;> omega

/-- **Bytes are the bytes of a character if and only if they announce it.** -/
theorem encodeChar_eq_iff {c : Char} {byte : UInt8} :
    String.utf8EncodeChar c = byte :: more ↔ Announces byte more c.toNat := by
  rw [announces_iff_sequence]
  constructor
  · exact sequence_of_encodeChar
  · intro h
    have hbytes := encodeChar_of_sequence h
    rwa [Char.ofNat_toNat] at hbytes

/-! ## Texts -/

/-- What is announced in front of other bytes is read as one character. -/
theorem decodeFrom_of_announces (position : Nat) {byte : UInt8} {n : Nat}
    (h : Announces byte more n) (rest : List UInt8) :
    decodeFrom position (byte :: (more ++ rest)) =
      (decodeFrom (position + 1 + more.length) rest).map (Char.ofNat n :: ·) := by
  obtain ⟨lead, hlead, hmore, rfl⟩ := h
  rw [decodeFrom, hlead]
  simp only [hmore.found rest, if_pos hmore.length, List.drop_left]

theorem encodeChar_ne_nil (c : Char) : String.utf8EncodeChar c ≠ [] := by
  unfold String.utf8EncodeChar
  dsimp only
  split_ifs <;> exact List.cons_ne_nil _ _

/-- The bytes of a text are read as that text. -/
theorem decodeFrom_encode (position : Nat) (text : List Char) :
    decodeFrom position (text.flatMap String.utf8EncodeChar) = .ok text := by
  induction text generalizing position with
  | nil => rw [List.flatMap_nil, decodeFrom]
  | cons c text ih =>
    rw [List.flatMap_cons]
    cases hbytes : String.utf8EncodeChar c with
    | nil => exact absurd hbytes (encodeChar_ne_nil c)
    | cons byte more =>
      have hannounces : Announces byte more c.toNat := encodeChar_eq_iff.mp hbytes
      rw [List.cons_append, decodeFrom_of_announces position hannounces, ih, Char.ofNat_toNat]
      rfl

/-- Bytes that are read as a text are the bytes of that text. -/
theorem encode_of_decodeFrom {position : Nat} {bytes : List UInt8} {text : List Char}
    (h : decodeFrom position bytes = .ok text) : text.flatMap String.utf8EncodeChar = bytes := by
  induction hlength : bytes.length using Nat.strongRecOn generalizing position bytes text with
  | ind length ih =>
    cases bytes with
    | nil =>
      rw [decodeFrom] at h
      obtain rfl := Except.ok.inj h
      rfl
    | cons byte bytes =>
      rw [decodeFrom] at h
      split at h
      next => simp at h
      next lead hlead =>
        dsimp only at h
        split at h
        next hcount =>
          -- as many continuation bytes as announced, so a character and the rest
          obtain ⟨hmore, rest, hrest⟩ := continues_of_length _ _ _ bytes hcount
          generalize continuations lead.count lead.least lead.greatest bytes = more at *
          subst hrest
          rw [List.drop_left] at h
          cases hdecode : decodeFrom (position + 1 + more.length) rest with
          | error m =>
            rw [hdecode] at h
            simp [Except.map] at h
          | ok others =>
            rw [hdecode] at h
            obtain rfl := Except.ok.inj h
            have hshorter : rest.length < length := by
              rw [← hlength, List.length_cons, List.length_append]
              omega
            have hothers := ih rest.length hshorter hdecode rfl
            have hannounces : Announces byte more (codePoint lead.bits more) :=
              ⟨lead, hlead, hmore, rfl⟩
            have hfirst := encodeChar_of_sequence (announces_iff_sequence.mp hannounces)
            rw [List.flatMap_cons, hfirst, hothers, List.cons_append]
        next => split at h <;> simp at h

/-- **Bytes are read as a text if and only if they are its bytes.** -/
theorem decode_eq_ok_iff {bytes : List UInt8} {text : String} :
    decode bytes = .ok text ↔ encode text = bytes := by
  constructor
  · intro h
    unfold decode at h
    cases hdecode : decodeFrom 0 bytes with
    | error m =>
      rw [hdecode] at h
      simp [Except.map] at h
    | ok chars =>
      rw [hdecode] at h
      obtain rfl := Except.ok.inj h
      rw [encode, String.toList_ofList]
      exact encode_of_decodeFrom hdecode
  · rintro rfl
    rw [decode, encode, decodeFrom_encode]
    exact congrArg Except.ok (String.ofList_toList)

end Stratagem.Text.Utf8
