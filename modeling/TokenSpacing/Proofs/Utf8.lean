import Mathlib.Data.List.TakeDrop
import TokenSpacing.Text.Utf8

/-!
# UTF-8 reads back what it writes

Decoding undoes encoding, character by character, and accepts nothing but
encodings.  From an encoding that is cut, the characters that are whole can still be
read, and nothing else.  The only character whose bytes contain the byte of a line feed is the
line feed itself, so that lines can be told apart in the bytes as well as in the
characters.
-/

namespace TokenSpacing.Text

/-! ## Decoding -/

private theorem toNat_toUInt8 {number : Nat} (hsmall : number < 256) :
    number.toUInt8.toNat = number :=
  UInt8.toNat_ofNat_of_lt' hsmall

private theorem continuation?_bits {bits : Nat} (hbits : bits < 0x40) :
    continuation? (0x80 + bits).toUInt8 = some bits := by
  rw [continuation?, toNat_toUInt8 (by omega), if_pos (by omega), Nat.add_sub_cancel_left]

private theorem continueCode_bits {count code bits : Nat} (rest : List UInt8)
    (hbits : bits < 0x40) :
    continueCode (count + 1) code ((0x80 + bits).toUInt8 :: rest) =
      continueCode count (0x40 * code + bits) rest := by
  simp only [continueCode, continuation?_bits hbits]

@[simp] private theorem continueCode_zero (code : Nat) (rest : List UInt8) :
    continueCode 0 code rest = some (code, rest) := rfl

private theorem decodeChar?_of_lead {c : Char} {byte : UInt8} {lead count least : Nat}
    {bytes rest : List UInt8} (hlead : leadByte? byte = some (lead, count, least))
    (hcode : continueCode count lead bytes = some (c.toNat, rest))
    (hleast : least ≤ c.toNat) :
    decodeChar? (byte :: bytes) = some (c, rest) := by
  have hvalid : c.toNat.isValidChar := c.valid
  simp only [decodeChar?, hlead, hcode]
  rw [if_pos ⟨hleast, hvalid⟩, Char.ofNat_toNat]

theorem toNat_lt_limit (c : Char) : c.toNat < 0x110000 := by
  have hvalid : c.toNat.isValidChar := c.valid
  rcases hvalid with hlow | ⟨-, hhigh⟩
  · omega
  · exact hhigh

theorem decodeChar?_encodeChar (c : Char) (rest : List UInt8) :
    decodeChar? (encodeChar c ++ rest) = some (c, rest) := by
  have hlimit := toNat_lt_limit c
  by_cases hone : c.toNat < 0x80
  · have hbytes : encodeChar c ++ rest = c.toNat.toUInt8 :: rest := by
      simp [encodeChar, hone]
    have hlead : leadByte? c.toNat.toUInt8 = some (c.toNat, 0, 0) := by
      simp only [leadByte?, toNat_toUInt8 (show c.toNat < 256 by omega), if_pos hone]
    rw [hbytes]
    exact decodeChar?_of_lead hlead (continueCode_zero _ _) (Nat.zero_le _)
  by_cases htwo : c.toNat < 0x800
  · have hbytes : encodeChar c ++ rest =
        (0xc0 + c.toNat / 0x40).toUInt8 :: (0x80 + c.toNat % 0x40).toUInt8 :: rest := by
      simp [encodeChar, hone, htwo]
    have hlead : leadByte? (0xc0 + c.toNat / 0x40).toUInt8 =
        some (c.toNat / 0x40, 1, 0x80) := by
      simp only [leadByte?, toNat_toUInt8 (show 0xc0 + c.toNat / 0x40 < 256 by omega)]
      rw [if_neg (by omega), if_neg (by omega), if_pos (by omega), Nat.add_sub_cancel_left]
    have hcode : 0x40 * (c.toNat / 0x40) + c.toNat % 0x40 = c.toNat := by omega
    rw [hbytes]
    refine decodeChar?_of_lead hlead ?_ (by omega)
    rw [continueCode_bits _ (by omega), continueCode_zero, hcode]
  by_cases hthree : c.toNat < 0x10000
  · have hbytes : encodeChar c ++ rest =
        (0xe0 + c.toNat / 0x1000).toUInt8 :: (0x80 + c.toNat / 0x40 % 0x40).toUInt8 ::
          (0x80 + c.toNat % 0x40).toUInt8 :: rest := by
      simp [encodeChar, hone, htwo, hthree]
    have hlead : leadByte? (0xe0 + c.toNat / 0x1000).toUInt8 =
        some (c.toNat / 0x1000, 2, 0x800) := by
      simp only [leadByte?, toNat_toUInt8 (show 0xe0 + c.toNat / 0x1000 < 256 by omega)]
      rw [if_neg (by omega), if_neg (by omega), if_neg (by omega), if_pos (by omega),
        Nat.add_sub_cancel_left]
    have hcode : 0x40 * (0x40 * (c.toNat / 0x1000) + c.toNat / 0x40 % 0x40) +
        c.toNat % 0x40 = c.toNat := by omega
    rw [hbytes]
    refine decodeChar?_of_lead hlead ?_ (by omega)
    rw [continueCode_bits _ (by omega), continueCode_bits _ (by omega), continueCode_zero,
      hcode]
  · have hbytes : encodeChar c ++ rest =
        (0xf0 + c.toNat / 0x40000).toUInt8 :: (0x80 + c.toNat / 0x1000 % 0x40).toUInt8 ::
          (0x80 + c.toNat / 0x40 % 0x40).toUInt8 :: (0x80 + c.toNat % 0x40).toUInt8 ::
            rest := by
      simp [encodeChar, hone, htwo, hthree]
    have hlead : leadByte? (0xf0 + c.toNat / 0x40000).toUInt8 =
        some (c.toNat / 0x40000, 3, 0x10000) := by
      simp only [leadByte?, toNat_toUInt8 (show 0xf0 + c.toNat / 0x40000 < 256 by omega)]
      rw [if_neg (by omega), if_neg (by omega), if_neg (by omega), if_neg (by omega),
        if_pos (by omega), Nat.add_sub_cancel_left]
    have hcode : 0x40 * (0x40 * (0x40 * (c.toNat / 0x40000) + c.toNat / 0x1000 % 0x40) +
        c.toNat / 0x40 % 0x40) + c.toNat % 0x40 = c.toNat := by omega
    rw [hbytes]
    refine decodeChar?_of_lead hlead ?_ (by omega)
    rw [continueCode_bits _ (by omega), continueCode_bits _ (by omega),
      continueCode_bits _ (by omega), continueCode_zero, hcode]

@[simp] theorem encode_nil : encode [] = [] := rfl

@[simp] theorem encode_cons (c : Char) (text : List Char) :
    encode (c :: text) = encodeChar c ++ encode text := rfl

@[simp] theorem encode_append (first second : List Char) :
    encode (first ++ second) = encode first ++ encode second := by
  simp [encode]

theorem decodeLongest_encode (text : List Char) : decodeLongest (encode text) = (text, []) := by
  induction text with
  | nil =>
      rw [encode_nil, decodeLongest]
      rfl
  | cons c text ih =>
      rw [decodeLongest]
      split
      next hnone =>
        rw [encode_cons, decodeChar?_encodeChar] at hnone
        contradiction
      next decoded remaining hsome =>
        rw [encode_cons, decodeChar?_encodeChar] at hsome
        cases hsome
        rw [ih]

@[simp] theorem decode?_encode (text : List Char) : decode? (encode text) = some text := by
  rw [decode?, decodeLongest_encode]

/-! ## What decodes is an encoding -/

private theorem toNat_ofNat {code : Nat} (hvalid : code.isValidChar) :
    (Char.ofNat code).toNat = code := by
  rw [Char.ofNat, dif_pos hvalid]
  rfl

private theorem continueCode_eq_some {count code total : Nat} {bytes rest : List UInt8}
    (hcode : continueCode (count + 1) code bytes = some (total, rest)) :
    ∃ bits tail, bits < 0x40 ∧ bytes = (0x80 + bits).toUInt8 :: tail ∧
      continueCode count (0x40 * code + bits) tail = some (total, rest) := by
  cases bytes with
  | nil => simp [continueCode] at hcode
  | cons byte tail =>
      simp only [continueCode, continuation?] at hcode
      by_cases hrange : 0x80 ≤ byte.toNat ∧ byte.toNat < 0xc0
      · rw [if_pos hrange] at hcode
        have hbyte : 0x80 + (byte.toNat - 0x80) = byte.toNat := by omega
        refine ⟨byte.toNat - 0x80, tail, by omega, ?_, hcode⟩
        simp [hbyte]
      · simp [hrange] at hcode

private theorem leadByte?_eq_some {byte : UInt8} {lead count least : Nat}
    (hlead : leadByte? byte = some (lead, count, least)) :
    (count = 0 ∧ least = 0 ∧ lead < 0x80 ∧ byte = lead.toUInt8) ∨
      (count = 1 ∧ least = 0x80 ∧ lead < 0x20 ∧ byte = (0xc0 + lead).toUInt8) ∨
      (count = 2 ∧ least = 0x800 ∧ lead < 0x10 ∧ byte = (0xe0 + lead).toUInt8) ∨
      (count = 3 ∧ least = 0x10000 ∧ lead < 0x08 ∧ byte = (0xf0 + lead).toUInt8) := by
  have hsame : ∀ {base : Nat}, base ≤ byte.toNat →
      byte = (base + (byte.toNat - base)).toUInt8 := by
    intro base hbase
    simp [Nat.add_sub_cancel' hbase]
  simp only [leadByte?] at hlead
  split_ifs at hlead <;> obtain ⟨rfl, rfl, rfl⟩ := by simpa using hlead
  · exact .inl ⟨rfl, rfl, by omega, by simp⟩
  · exact .inr (.inl ⟨rfl, rfl, by omega, hsame (by omega)⟩)
  · exact .inr (.inr (.inl ⟨rfl, rfl, by omega, hsame (by omega)⟩))
  · exact .inr (.inr (.inr ⟨rfl, rfl, by omega, hsame (by omega)⟩))

theorem eq_encodeChar_of_decodeChar? {bytes rest : List UInt8} {c : Char}
    (hdecoded : decodeChar? bytes = some (c, rest)) : bytes = encodeChar c ++ rest := by
  cases bytes with
  | nil => simp [decodeChar?] at hdecoded
  | cons byte tail =>
      simp only [decodeChar?] at hdecoded
      split at hdecoded
      · contradiction
      next lead count least hlead =>
        split at hdecoded
        · contradiction
        next code remaining hcode =>
          obtain ⟨⟨hleast, hvalid⟩, hsame⟩ := Option.ite_none_right_eq_some.mp hdecoded
          cases hsame
          have hnat := toNat_ofNat hvalid
          rcases leadByte?_eq_some hlead with ⟨rfl, rfl, hsmall, rfl⟩ | ⟨rfl, rfl, hsmall, rfl⟩ |
            ⟨rfl, rfl, hsmall, rfl⟩ | ⟨rfl, rfl, hsmall, rfl⟩
          · cases hcode
            simp [encodeChar, hnat, hsmall]
          · obtain ⟨low, _, hlow, rfl, hdone⟩ := continueCode_eq_some hcode
            cases hdone
            have hhigh : (0x40 * lead + low) / 0x40 = lead := by omega
            have hbits : (0x40 * lead + low) % 0x40 = low := by omega
            simp only [encodeChar, hnat]
            rw [if_neg (by omega), if_pos (by omega), hhigh, hbits]
            rfl
          · obtain ⟨middle, _, hmiddle, rfl, hmore⟩ := continueCode_eq_some hcode
            obtain ⟨low, _, hlow, rfl, hdone⟩ := continueCode_eq_some hmore
            cases hdone
            have htop : (0x40 * (0x40 * lead + middle) + low) / 0x1000 = lead := by omega
            have hhigh : (0x40 * (0x40 * lead + middle) + low) / 0x40 % 0x40 = middle := by omega
            have hbits : (0x40 * (0x40 * lead + middle) + low) % 0x40 = low := by omega
            simp only [encodeChar, hnat]
            rw [if_neg (by omega), if_neg (by omega), if_pos (by omega), htop, hhigh, hbits]
            rfl
          · obtain ⟨upper, _, hupper, rfl, hmore⟩ := continueCode_eq_some hcode
            obtain ⟨middle, _, hmiddle, rfl, hmost⟩ := continueCode_eq_some hmore
            obtain ⟨low, _, hlow, rfl, hdone⟩ := continueCode_eq_some hmost
            cases hdone
            set code := 0x40 * (0x40 * (0x40 * lead + upper) + middle) + low with hdef
            have hfirst : code / 0x40000 = lead := by omega
            have htop : code / 0x1000 % 0x40 = upper := by omega
            have hhigh : code / 0x40 % 0x40 = middle := by omega
            have hbits : code % 0x40 = low := by omega
            simp only [encodeChar, hnat]
            rw [if_neg (by omega), if_neg (by omega), if_neg (by omega), hfirst, htop, hhigh,
              hbits]
            rfl

theorem eq_encode_of_decodeLongest {bytes rest : List UInt8} {text : List Char}
    (hdecoded : decodeLongest bytes = (text, rest)) : bytes = encode text ++ rest := by
  fun_induction decodeLongest bytes generalizing text rest with
  | case1 bytes hnone =>
      cases hdecoded
      rfl
  | case2 bytes c remaining hsome text' rest' hrest ih =>
      cases hdecoded
      rw [encode_cons, List.append_assoc, ← ih hrest]
      exact eq_encodeChar_of_decodeChar? hsome

/-- Bytes decode to a text if and only if they are its encoding. -/
theorem decode?_eq_some_iff {bytes : List UInt8} {text : List Char} :
    decode? bytes = some text ↔ bytes = encode text := by
  constructor
  · intro hdecoded
    unfold decode? at hdecoded
    split at hdecoded
    next whole hlongest =>
      cases hdecoded
      simpa using eq_encode_of_decodeLongest hlongest
    · contradiction
  · rintro rfl
    exact decode?_encode text

/-! ## Lengths -/

theorem byteLength_pos (c : Char) : 0 < byteLength c := by
  simp only [byteLength, encodeChar]
  split_ifs <;> simp

theorem byteLength_of_isAscii {c : Char} (hascii : isAscii c = true) : byteLength c = 1 := by
  have hcode : c.toNat < 0x80 := by simpa [isAscii] using hascii
  simp [byteLength, encodeChar, hcode]

theorem length_encode_cons (c : Char) (text : List Char) :
    (encode (c :: text)).length = byteLength c + (encode text).length := by
  simp [byteLength]

theorem length_encode_of_ascii {text : List Char} (hascii : text.all isAscii = true) :
    (encode text).length = text.length := by
  induction text with
  | nil => rfl
  | cons c text ih =>
      obtain ⟨hc, htext⟩ : isAscii c = true ∧ text.all isAscii = true := by
        simpa using hascii
      rw [length_encode_cons, byteLength_of_isAscii hc, ih htext, List.length_cons]
      omega

theorem prefix_of_length_encode_le {first second text : List Char}
    (hfirst : first <+: text) (hsecond : second <+: text)
    (hlength : (encode first).length ≤ (encode second).length) : first <+: second := by
  rcases List.prefix_or_prefix_of_prefix hfirst hsecond with hle | hge
  · exact hle
  · obtain ⟨extra, rfl⟩ := hge
    cases extra with
    | nil => simp
    | cons c extra =>
        have hpositive := byteLength_pos c
        rw [encode_append, List.length_append, length_encode_cons] at hlength
        omega

/-! ## Characters that are cut -/

theorem decodeIgnoring_of_decodeChar? {bytes rest : List UInt8} {c : Char}
    (hdecoded : decodeChar? bytes = some (c, rest)) :
    decodeIgnoring bytes = c :: decodeIgnoring rest := by
  cases bytes with
  | nil => simp [decodeChar?] at hdecoded
  | cons byte tail =>
      rw [decodeIgnoring]
      split
      next hnone =>
        rw [hdecoded] at hnone
        contradiction
      next hsome =>
        rw [hdecoded] at hsome
        cases hsome
        rfl

@[simp] theorem decodeIgnoring_encode (text : List Char) : decodeIgnoring (encode text) = text := by
  induction text with
  | nil => rw [encode_nil, decodeIgnoring]
  | cons c text ih =>
      rw [encode_cons, decodeIgnoring_of_decodeChar? (decodeChar?_encodeChar c _), ih]

theorem continuation_of_mem_tail {c : Char} {byte : UInt8} (hbyte : byte ∈ (encodeChar c).tail) :
    0x80 ≤ byte.toNat ∧ byte.toNat < 0xc0 := by
  have hbits : ∃ bits, bits < 0x40 ∧ byte = (0x80 + bits).toUInt8 := by
    simp only [encodeChar] at hbyte
    split_ifs at hbyte <;>
      simp only [List.tail_cons, List.mem_cons, List.not_mem_nil, or_false] at hbyte
    · exact ⟨_, Nat.mod_lt _ (by omega), hbyte⟩
    · rcases hbyte with rfl | rfl <;> exact ⟨_, Nat.mod_lt _ (by omega), rfl⟩
    · rcases hbyte with rfl | rfl | rfl <;> exact ⟨_, Nat.mod_lt _ (by omega), rfl⟩
  obtain ⟨bits, hbits, rfl⟩ := hbits
  rw [toNat_toUInt8 (by omega)]
  omega

theorem decodeIgnoring_of_continuations {bytes : List UInt8}
    (hbytes : ∀ byte ∈ bytes, 0x80 ≤ byte.toNat ∧ byte.toNat < 0xc0) :
    decodeIgnoring bytes = [] := by
  induction bytes with
  | nil => rw [decodeIgnoring]
  | cons byte rest ih =>
      obtain ⟨hbyte, hrest⟩ := List.forall_mem_cons.mp hbytes
      have hlead : leadByte? byte = none := by
        simp only [leadByte?]
        rw [if_neg (by omega), if_pos (by omega)]
      have hnone : decodeChar? (byte :: rest) = none := by simp [decodeChar?, hlead]
      rw [decodeIgnoring]
      split
      next => exact ih hrest
      next hsome =>
        rw [hnone] at hsome
        contradiction

theorem decodeChar?_take_encodeChar {c : Char} {count : Nat} (hcut : count < byteLength c) :
    decodeChar? ((encodeChar c).take count) = none := by
  cases hdecoded : decodeChar? ((encodeChar c).take count) with
  | none => rfl
  | some found =>
      obtain ⟨other, rest⟩ := found
      have hbytes := eq_encodeChar_of_decodeChar? hdecoded
      have hwhole := List.take_append_drop count (encodeChar c)
      have hread := decodeChar?_encodeChar c []
      rw [List.append_nil, ← hwhole, hbytes, List.append_assoc, decodeChar?_encodeChar] at hread
      have hrest : (encodeChar c).drop count = [] := by
        simp only [Option.some.injEq, Prod.mk.injEq, List.append_eq_nil_iff] at hread
        exact hread.2.2
      rw [List.drop_eq_nil_iff] at hrest
      rw [byteLength] at hcut
      omega

theorem decodeIgnoring_take_encodeChar {c : Char} {count : Nat} (hcut : count < byteLength c) :
    decodeIgnoring ((encodeChar c).take count) = [] := by
  have hnone := decodeChar?_take_encodeChar hcut
  have htail : ∀ byte ∈ ((encodeChar c).take count).tail,
      0x80 ≤ byte.toNat ∧ byte.toNat < 0xc0 := by
    intro byte hbyte
    rw [List.tail_take_eq_take_tail] at hbyte
    exact continuation_of_mem_tail (List.mem_of_mem_take hbyte)
  cases hbytes : (encodeChar c).take count with
  | nil => rw [decodeIgnoring]
  | cons byte rest =>
      rw [hbytes] at hnone htail
      rw [decodeIgnoring]
      split
      next => exact decodeIgnoring_of_continuations htail
      next hsome =>
        rw [hnone] at hsome
        contradiction

/-! ## Line feeds -/

theorem encodeChar_lineFeed : encodeChar '\n' = [0x0a] := rfl

theorem toNat_of_mem_encodeChar {c : Char} {byte : UInt8} (hbyte : byte ∈ encodeChar c) :
    byte.toNat = c.toNat ∨ 0x80 ≤ byte.toNat := by
  have hlimit := toNat_lt_limit c
  simp only [encodeChar] at hbyte
  split at hbyte
  next hone =>
    obtain rfl := List.mem_singleton.mp hbyte
    exact .inl (toNat_toUInt8 (by omega))
  next =>
    have hhigh : ∃ number, byte = (0x80 + number).toUInt8 ∧ number < 0x80 := by
      split at hbyte
      next =>
        simp only [List.mem_cons, List.not_mem_nil, or_false] at hbyte
        rcases hbyte with rfl | rfl
        · exact ⟨0x40 + c.toNat / 0x40, by congr 1; omega, by omega⟩
        · exact ⟨_, rfl, by omega⟩
      next =>
        split at hbyte
        next =>
          simp only [List.mem_cons, List.not_mem_nil, or_false] at hbyte
          rcases hbyte with rfl | rfl | rfl
          · exact ⟨0x60 + c.toNat / 0x1000, by congr 1; omega, by omega⟩
          · exact ⟨_, rfl, by omega⟩
          · exact ⟨_, rfl, by omega⟩
        next =>
          simp only [List.mem_cons, List.not_mem_nil, or_false] at hbyte
          rcases hbyte with rfl | rfl | rfl | rfl
          · exact ⟨0x70 + c.toNat / 0x40000, by congr 1; omega, by omega⟩
          · exact ⟨_, rfl, by omega⟩
          · exact ⟨_, rfl, by omega⟩
          · exact ⟨_, rfl, by omega⟩
    obtain ⟨number, rfl, hnumber⟩ := hhigh
    right
    rw [toNat_toUInt8 (by omega)]
    omega

theorem lineFeed_not_mem_encodeChar {c : Char} (hc : c ≠ '\n') : 0x0a ∉ encodeChar c := by
  intro hmem
  rcases toNat_of_mem_encodeChar hmem with hsame | hhigh
  · apply hc
    rw [← Char.ofNat_toNat c, ← hsame]
    rfl
  · exact absurd hhigh (by decide)

theorem count_lineFeed_encode (text : List Char) :
    (encode text).count 0x0a = text.count '\n' := by
  induction text with
  | nil => rfl
  | cons c text ih =>
      rw [encode_cons, List.count_append, ih]
      by_cases hc : c = '\n'
      · subst hc
        rw [encodeChar_lineFeed, List.count_cons_self]
        simp
        omega
      · rw [List.count_eq_zero_of_not_mem (lineFeed_not_mem_encodeChar hc),
          List.count_cons_of_ne hc, Nat.zero_add]

theorem lineFeed_not_mem_encode {text : List Char} (htext : '\n' ∉ text) :
    0x0a ∉ encode text := by
  rw [← List.count_eq_zero, count_lineFeed_encode]
  exact List.count_eq_zero.mpr htext

end TokenSpacing.Text
