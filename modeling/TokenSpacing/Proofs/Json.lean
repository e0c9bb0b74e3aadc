import Mathlib.Data.List.DropRight
import TokenSpacing.CommandLine.Checker
import TokenSpacing.Proofs.Utf8

/-!
# Issues read back from JSON

A reader for the part of JSON that holds texts, integers, arrays and objects, with
blanks between all parts and every escape in texts.  What the command prints for a list
of issues is one array that the reader takes apart into exactly these issues.
-/

namespace TokenSpacing

inductive Json where
  | string (value : String)
  | integer (value : Int)
  | array (items : List Json)
  | object (members : List (String × Json))

namespace Json

def isBlank (c : Char) : Bool :=
  c == ' ' || c == '\n' || c == '\r' || c == '\t'

def skipBlanks (text : List Char) : List Char :=
  text.dropWhile isBlank

def readUnit? : List Char → Option (Nat × List Char)
  | a :: b :: c :: d :: rest =>
      if [a, b, c, d].all Text.isHexDigit then some (Text.baseValue 16 [a, b, c, d], rest)
      else none
  | _ => none

def readUnits? (text : List Char) : Option (Char × List Char) := do
  let (unit, rest) ← readUnit? text
  if unit < 0xd800 || 0xe000 ≤ unit then
    return (Char.ofNat unit, rest)
  else
    match rest with
    | '\\' :: 'u' :: rest =>
        let (low, rest) ← readUnit? rest
        if unit < 0xdc00 && 0xdc00 ≤ low && low < 0xe000 then
          return (Char.ofNat (0x10000 + (unit - 0xd800) * 0x400 + (low - 0xdc00)), rest)
        else
          none
    | _ => none

def shortEscapes : List (Char × Char) :=
  [('"', '"'), ('\\', '\\'), ('/', '/'), ('b', Char.ofNat 0x08), ('f', Char.ofNat 0x0c),
   ('n', '\n'), ('r', '\r'), ('t', '\t')]

def readEscape? : List Char → Option (Char × List Char)
  | [] => none
  | c :: rest =>
      if c == 'u' then readUnits? rest
      else (shortEscapes.lookup c).map fun escaped => (escaped, rest)

def readChar? : List Char → Option (Char × List Char)
  | [] => none
  | c :: rest =>
      if c == '\\' then readEscape? rest
      else if c == '"' || c.toNat < 0x20 then none
      else some (c, rest)

def readText? : Nat → List Char → Option (List Char × List Char)
  | 0, _ => none
  | _ + 1, '"' :: rest => some ([], rest)
  | fuel + 1, text => do
      let (c, rest) ← readChar? text
      let (more, rest) ← readText? fuel rest
      return (c :: more, rest)

/-- A zero stands alone or not in front. -/
def readNatural? (text : List Char) : Option (Nat × List Char) :=
  match text.takeWhile Char.isDigit with
  | [] => none
  | '0' :: _ :: _ => none
  | digits => some (Nat.ofDigitChars 10 digits 0, text.dropWhile Char.isDigit)

def readInteger? (text : List Char) : Option (Int × List Char) :=
  match text with
  | '-' :: rest => (readNatural? rest).map fun (value, rest) => (-value, rest)
  | _ => (readNatural? text).map fun (value, rest) => (value, rest)

mutual

def readValue? : Nat → List Char → Option (Json × List Char)
  | 0, _ => none
  | fuel + 1, text =>
      match skipBlanks text with
      | '"' :: rest => do
          let (value, rest) ← readText? (rest.length + 1) rest
          return (.string (String.ofList value), rest)
      | '[' :: rest =>
          match skipBlanks rest with
          | ']' :: rest => some (.array [], rest)
          | rest => do
              let (items, rest) ← readItems? fuel rest
              return (.array items, rest)
      | '\x7b' :: rest =>
          match skipBlanks rest with
          | '\x7d' :: rest => some (.object [], rest)
          | rest => do
              let (members, rest) ← readMembers? fuel rest
              return (.object members, rest)
      | rest => (readInteger? rest).map fun (value, rest) => (.integer value, rest)

def readItems? : Nat → List Char → Option (List Json × List Char)
  | 0, _ => none
  | fuel + 1, text => do
      let (item, rest) ← readValue? fuel text
      match skipBlanks rest with
      | ',' :: rest =>
          let (items, rest) ← readItems? fuel rest
          return (item :: items, rest)
      | ']' :: rest => return ([item], rest)
      | _ => none

def readMembers? : Nat → List Char → Option (List (String × Json) × List Char)
  | 0, _ => none
  | fuel + 1, text =>
      match skipBlanks text with
      | '"' :: rest => do
          let (key, rest) ← readText? (rest.length + 1) rest
          match skipBlanks rest with
          | ':' :: rest =>
              let (value, rest) ← readValue? fuel rest
              match skipBlanks rest with
              | ',' :: rest =>
                  let (members, rest) ← readMembers? fuel rest
                  return ((String.ofList key, value) :: members, rest)
              | '\x7d' :: rest => return ([(String.ofList key, value)], rest)
              | _ => none
          | _ => none
      | _ => none

end

def read? (document : String) : Option Json := do
  let (value, rest) ← readValue? (document.length + 1) document.toList
  if skipBlanks rest = [] then some value else none

/-! ## Texts -/

theorem hexDigitValue_digitChar :
    ∀ digit < 16, Text.hexDigitValue (Nat.digitChar digit) = digit := by
  decide

theorem isHexDigit_digitChar : ∀ digit < 16, Text.isHexDigit (Nat.digitChar digit) = true := by
  decide

theorem readUnit?_hexDigits {code : Nat} (hcode : code < 0x10000) (rest : List Char) :
    readUnit? (Text.hexDigits 4 code ++ rest) = some (code, rest) := by
  have hdigit : ∀ number, number % 16 < 16 := fun number => Nat.mod_lt number (by decide)
  simp [Text.hexDigits, readUnit?, Text.baseValue, isHexDigit_digitChar, hexDigitValue_digitChar,
    hdigit]
  omega

theorem readUnits?_of_basic {c : Char} (hbasic : c.toNat < 0x10000) (rest : List Char) :
    readUnits? (Text.hexDigits 4 c.toNat ++ rest) = some (c, rest) := by
  have hvalid : c.toNat < 0xd800 ∨ 0xe000 ≤ c.toNat := by
    rcases c.valid with hlow | ⟨hhigh, -⟩
    · exact .inl hlow
    · exact .inr hhigh
  simp [readUnits?, readUnit?_hexDigits hbasic, hvalid]

theorem readUnits?_of_halves {high low : Nat} (hhigh : high < 0x400) (hlow : low < 0x400)
    (rest : List Char) :
    readUnits? (Text.hexDigits 4 (0xd800 + high) ++ (Text.jsonUnit (0xdc00 + low) ++ rest)) =
      some (Char.ofNat (0x10000 + high * 0x400 + low), rest) := by
  have hfirst := readUnit?_hexDigits (show 0xd800 + high < 0x10000 by omega)
    (Text.jsonUnit (0xdc00 + low) ++ rest)
  have hsecond := readUnit?_hexDigits (show 0xdc00 + low < 0x10000 by omega) rest
  have hsurrogate : ¬ (0xd800 + high < 0xd800 ∨ 0xe000 ≤ 0xd800 + high) := by omega
  have hhalves : (0xd800 + high < 0xdc00 ∧ 0xdc00 ≤ 0xdc00 + low) ∧ 0xdc00 + low < 0xe000 := by
    omega
  rw [readUnits?, hfirst]
  simp only [Option.bind_eq_bind, Option.bind_some, Bool.or_eq_true, decide_eq_true_eq,
    hsurrogate, if_false, Text.jsonUnit, List.cons_append, hsecond, Bool.and_eq_true, hhalves,
    and_self, if_true, Nat.add_sub_cancel_left, Option.pure_def]

theorem readUnits?_of_pair {c : Char} (hpair : 0x10000 ≤ c.toNat) (rest : List Char) :
    readUnits? (Text.hexDigits 4 (0xd800 + (c.toNat - 0x10000) / 0x400) ++
      (Text.jsonUnit (0xdc00 + (c.toNat - 0x10000) % 0x400) ++ rest)) = some (c, rest) := by
  have hlimit := Text.toNat_lt_limit c
  have hcode : 0x10000 + (c.toNat - 0x10000) / 0x400 * 0x400 + (c.toNat - 0x10000) % 0x400 =
      c.toNat := by
    omega
  rw [readUnits?_of_halves (by omega) (by omega), hcode, Char.ofNat_toNat]

theorem readChar?_jsonChar (c : Char) (rest : List Char) :
    readChar? (Text.jsonChar c ++ rest) = some (c, rest) := by
  unfold Text.jsonChar
  split
  next hquoted =>
    rcases Bool.or_eq_true_iff.mp hquoted with hc | hc
    · obtain rfl := beq_iff_eq.mp hc
      rfl
    · obtain rfl := beq_iff_eq.mp hc
      rfl
  next hquoted =>
  split
  next hc =>
    obtain rfl := beq_iff_eq.mp hc
    rfl
  split
  next hc =>
    obtain rfl := beq_iff_eq.mp hc
    rfl
  split
  next hc =>
    obtain rfl := beq_iff_eq.mp hc
    rfl
  split
  next hc =>
    obtain rfl : c = Char.ofNat 0x08 := by
      rw [← Char.ofNat_toNat c, beq_iff_eq.mp hc]
    rfl
  split
  next hc =>
    obtain rfl : c = Char.ofNat 0x0c := by
      rw [← Char.ofNat_toNat c, beq_iff_eq.mp hc]
    rfl
  split
  next hplain =>
    simp only [Bool.and_eq_true, decide_eq_true_eq] at hplain
    simp only [Bool.or_eq_true, beq_iff_eq, not_or] at hquoted
    simp [readChar?, hquoted, hplain.1]
  split
  next hbasic =>
    simpa [readChar?, readEscape?, Text.jsonUnit] using readUnits?_of_basic hbasic rest
  next hpair =>
    have hread := readUnits?_of_pair (Nat.le_of_not_lt hpair) rest
    simpa [readChar?, readEscape?, Text.jsonUnit] using hread

theorem readText?_of_readChar? {fuel : Nat} {c : Char} {text rest more after : List Char}
    (hchar : readChar? text = some (c, rest)) (hmore : readText? fuel rest = some (more, after)) :
    readText? (fuel + 1) text = some (c :: more, after) := by
  have hopen : ∀ closed, text ≠ '"' :: closed := by
    rintro closed rfl
    simp [readChar?] at hchar
  simp [readText?, hchar, hmore]

theorem readText?_flatMap (text : List Char) {fuel : Nat} (hfuel : text.length < fuel)
    (rest : List Char) :
    readText? fuel (text.flatMap Text.jsonChar ++ '"' :: rest) = some (text, rest) := by
  induction text generalizing fuel with
  | nil =>
      obtain ⟨fuel, rfl⟩ := Nat.exists_eq_succ_of_ne_zero (Nat.ne_of_gt hfuel)
      rfl
  | cons c text ih =>
      obtain ⟨fuel, rfl⟩ := Nat.exists_eq_succ_of_ne_zero (Nat.ne_of_gt (Nat.zero_lt_of_lt hfuel))
      rw [List.flatMap_cons, List.append_assoc]
      apply readText?_of_readChar? (readChar?_jsonChar c _)
      apply ih
      simpa using hfuel

theorem length_le_length_flatMap (text : List Char) :
    text.length ≤ (text.flatMap Text.jsonChar).length := by
  induction text with
  | nil => simp
  | cons c text ih =>
      have hwritten : Text.jsonChar c ≠ [] := by
        intro hempty
        have hread := readChar?_jsonChar c []
        simp [hempty, readChar?] at hread
      have hpos := List.length_pos_iff.mpr hwritten
      simp only [List.flatMap_cons, List.length_append, List.length_cons]
      omega

theorem readText?_jsonString (text : String) (rest : List Char) :
    ∃ body, (Text.jsonString text).toList ++ rest = '"' :: body ∧
      readText? (body.length + 1) body = some (text.toList, rest) := by
  refine ⟨text.toList.flatMap Text.jsonChar ++ '"' :: rest, by simp [Text.jsonString], ?_⟩
  apply readText?_flatMap
  have hlength := length_le_length_flatMap text.toList
  simp only [List.length_append]
  omega

/-! ## Values -/

theorem skipBlanks_cons_of_blank {c : Char} (hblank : isBlank c = true) (text : List Char) :
    skipBlanks (c :: text) = skipBlanks text := by
  simp [skipBlanks, hblank]

theorem skipBlanks_cons_of_not_blank {c : Char} (hblank : isBlank c = false) (text : List Char) :
    skipBlanks (c :: text) = c :: text := by
  simp [skipBlanks, hblank]

/-- Whatever follows, a text is read as a value with this much fuel.  Only digits must not
follow, since they could belong to a number. -/
def Spells (depth : Nat) (text : List Char) (value : Json) : Prop :=
  ∀ fuel rest, depth ≤ fuel → (∀ c ∈ rest.head?, c.isDigit = false) →
    readValue? fuel (text ++ rest) = some (value, rest)

theorem readValue?_blank {c : Char} (hblank : isBlank c = true) (fuel : Nat) (text : List Char) :
    readValue? fuel (c :: text) = readValue? fuel text := by
  cases fuel with
  | zero => rfl
  | succ fuel => simp only [readValue?, skipBlanks_cons_of_blank hblank]

theorem spells_string (text : String) : Spells 1 (Text.jsonString text).toList (.string text) := by
  intro fuel rest hfuel _
  obtain ⟨fuel, rfl⟩ := Nat.exists_eq_succ_of_ne_zero (Nat.ne_of_gt hfuel)
  obtain ⟨body, hbody, hread⟩ := readText?_jsonString text rest
  rw [hbody, readValue?, skipBlanks_cons_of_not_blank (by decide)]
  simp [hread]

theorem isDigit_of_mem_repr (number : Nat) : ∀ c ∈ number.repr.toList, c.isDigit = true := by
  intro c hc
  rw [Nat.toList_repr] at hc
  exact Nat.isDigit_of_mem_toDigits (by decide) (by decide) hc

theorem head?_toDigits_ne_zero {number : Nat} (hpos : 0 < number) :
    (Nat.toDigits 10 number).head? ≠ some '0' := by
  induction number using Nat.strongRecOn with
  | ind number ih =>
      rw [Nat.toDigits_eq_if (by decide)]
      split
      next hsmall =>
        have hdigit : ∀ digit < 10, 0 < digit → Nat.digitChar digit ≠ '0' := by decide
        simpa using hdigit number hsmall hpos
      next hlarge =>
        rw [List.head?_append_of_ne_nil _ Nat.toDigits_ne_nil]
        exact ih (number / 10) (by omega) (by omega)

theorem toDigits_ne_zero_cons_cons (number : Nat) (c : Char) (digits : List Char) :
    Nat.toDigits 10 number ≠ '0' :: c :: digits := by
  intro hdigits
  rcases Nat.eq_zero_or_pos number with rfl | hpos
  · simp at hdigits
  · exact head?_toDigits_ne_zero hpos (by rw [hdigits, List.head?_cons])

theorem readNatural?_repr (number : Nat) {rest : List Char}
    (hrest : ∀ c ∈ rest.head?, c.isDigit = false) :
    readNatural? (number.repr.toList ++ rest) = some (number, rest) := by
  have hdigits := isDigit_of_mem_repr number
  have hstop : rest.takeWhile Char.isDigit = [] ∧ rest.dropWhile Char.isDigit = rest := by
    cases rest with
    | nil => simp
    | cons c rest => simp [hrest c rfl]
  have htake : (number.repr.toList ++ rest).takeWhile Char.isDigit = number.repr.toList := by
    rw [List.takeWhile_append_of_pos hdigits, hstop.1, List.append_nil]
  have hdrop : (number.repr.toList ++ rest).dropWhile Char.isDigit = rest := by
    rw [List.dropWhile_append_of_pos hdigits, hstop.2]
  rw [readNatural?, htake, hdrop, Nat.toList_repr]
  split
  next hnone => exact absurd hnone Nat.toDigits_ne_nil
  next hzero => exact absurd hzero (toDigits_ne_zero_cons_cons number _ _)
  next => rw [Nat.ofDigitChars_ten_toDigits]

theorem readValue?_of_sign {fuel : Nat} {c : Char} (hc : c.isDigit = true ∨ c = '-')
    (text : List Char) :
    readValue? (fuel + 1) (c :: text) =
      (readInteger? (c :: text)).map fun (value, rest) => (.integer value, rest) := by
  have hother : ∀ other, other.isDigit = false → other ≠ '-' → c ≠ other := by
    rintro other hdigit hsign rfl
    rcases hc with hc | hc
    · simp [hdigit] at hc
    · exact hsign hc
  have hblank : isBlank c = false := by
    simp [isBlank, hother]
  simp [readValue?, skipBlanks_cons_of_not_blank hblank, hother]

theorem exists_repr_eq_cons (number : Nat) :
    ∃ c digits, number.repr.toList = c :: digits ∧ c.isDigit = true := by
  have hdigits := isDigit_of_mem_repr number
  cases hrepr : number.repr.toList with
  | nil => exact absurd (Nat.toList_repr.symm.trans hrepr) Nat.toDigits_ne_nil
  | cons c digits => exact ⟨c, digits, rfl, hdigits c (by simp [hrepr])⟩

theorem spells_integer (number : Int) :
    Spells 1 (toString number).toList (.integer number) := by
  intro fuel rest hfuel hrest
  obtain ⟨fuel, rfl⟩ := Nat.exists_eq_succ_of_ne_zero (Nat.ne_of_gt hfuel)
  cases number with
  | ofNat number =>
      change readValue? (fuel + 1) (number.repr.toList ++ rest) = _
      have hread := readNatural?_repr number hrest
      obtain ⟨c, digits, hrepr, hc⟩ := exists_repr_eq_cons number
      have hsign : c ≠ '-' := by
        rintro rfl
        cases hc
      rw [hrepr, List.cons_append] at hread ⊢
      rw [readValue?_of_sign (.inl hc)]
      simp [readInteger?, hsign, hread]
  | negSucc number =>
      have htext : (toString (Int.negSucc number)).toList = '-' :: (number + 1).repr.toList := by
        simp [toString, Int.repr]
      have hread := readNatural?_repr (number + 1) hrest
      rw [htext, List.cons_append, readValue?_of_sign (.inr rfl)]
      simp only [readInteger?, hread, Option.map_some]
      rfl

/-! ## Objects and arrays -/

def memberLine (key : String) (text : List Char) : List Char :=
  ' ' :: ' ' :: ' ' :: ' ' :: ((Text.jsonString key).toList ++ ':' :: ' ' :: text)

theorem readMembers?_memberLine {fuel : Nat} {text after : List Char} {value : Json}
    (key : String) (hspells : Spells 1 text value) (hfuel : 1 ≤ fuel)
    (hafter : ∀ c ∈ after.head?, c.isDigit = false) :
    readMembers? (fuel + 1) (memberLine key text ++ after) =
      match skipBlanks after with
      | ',' :: rest => do
          let (members, rest) ← readMembers? fuel rest
          return ((key, value) :: members, rest)
      | '\x7d' :: rest => some ([(key, value)], rest)
      | _ => none := by
  have hline : skipBlanks (memberLine key text ++ after) =
      (Text.jsonString key).toList ++ (':' :: ' ' :: (text ++ after)) := by
    simp [memberLine, skipBlanks, isBlank, Text.jsonString]
  obtain ⟨body, hbody, hkey⟩ := readText?_jsonString key (':' :: ' ' :: (text ++ after))
  have hvalue := hspells fuel after hfuel hafter
  rw [← readValue?_blank (show isBlank ' ' = true by decide)] at hvalue
  rw [readMembers?, hline, hbody]
  simp only [hkey, Option.bind_eq_bind, Option.bind_some,
    skipBlanks_cons_of_not_blank (show isBlank ':' = false by decide), hvalue, String.ofList_toList]
  rfl

theorem readMembers?_blank {c : Char} (hblank : isBlank c = true) (fuel : Nat)
    (text : List Char) : readMembers? fuel (c :: text) = readMembers? fuel text := by
  cases fuel with
  | zero => rfl
  | succ fuel => simp only [readMembers?, skipBlanks_cons_of_blank hblank]

theorem readMembers?_lines {fuel : Nat} (member : String × List Char × Json)
    (members : List (String × List Char × Json))
    (hspells : ∀ other ∈ member :: members, Spells 1 other.2.1 other.2.2)
    (hfuel : members.length + 2 ≤ fuel) (rest : List Char) :
    readMembers? fuel
      ([',', '\n'].intercalate
          ((member :: members).map fun other => memberLine other.1 other.2.1) ++
        '\n' :: ' ' :: ' ' :: '\x7d' :: rest) =
      some ((member :: members).map fun other => (other.1, other.2.2), rest) := by
  induction members generalizing member fuel with
  | nil =>
      obtain ⟨fuel, rfl⟩ := Nat.exists_eq_add_of_le' (Nat.one_le_of_lt hfuel)
      rw [List.map_singleton, List.intercalate_singleton,
        readMembers?_memberLine member.1 (hspells member (by simp)) (by omega) (by simp)]
      simp [skipBlanks, isBlank]
  | cons next members ih =>
      obtain ⟨fuel, rfl⟩ := Nat.exists_eq_add_of_le' (Nat.one_le_of_lt hfuel)
      have hmore := ih next (fun other hother => hspells other (List.mem_cons_of_mem _ hother))
        (show members.length + 2 ≤ fuel by simpa using hfuel)
      rw [← readMembers?_blank (show isBlank '\n' = true by decide)] at hmore
      rw [List.map_cons, List.map_cons, List.intercalate_cons_cons, List.append_assoc,
        List.append_assoc, readMembers?_memberLine member.1 (hspells member (by simp)) (by omega)
          (by simp)]
      rw [List.map_cons] at hmore
      simp [skipBlanks, isBlank, hmore]

theorem readItems?_blank {c : Char} (hblank : isBlank c = true) (fuel : Nat) (text : List Char) :
    readItems? fuel (c :: text) = readItems? fuel text := by
  cases fuel with
  | zero => rfl
  | succ fuel => simp only [readItems?, readValue?_blank hblank]

theorem readItems?_lines {depth fuel : Nat} (item : List Char × Json)
    (items : List (List Char × Json))
    (hspells : ∀ other ∈ item :: items, Spells depth other.1 other.2)
    (hfuel : items.length + depth < fuel) (rest : List Char) :
    readItems? fuel
      ([',', '\n'].intercalate ((item :: items).map Prod.fst) ++ '\n' :: ']' :: rest) =
      some ((item :: items).map Prod.snd, rest) := by
  induction items generalizing item fuel with
  | nil =>
      obtain ⟨fuel, rfl⟩ := Nat.exists_eq_add_of_le' (Nat.one_le_of_lt hfuel)
      have hitem := hspells item (by simp) fuel ('\n' :: ']' :: rest)
        (by simp only [List.length_nil] at hfuel; omega) (by simp)
      simp [readItems?, hitem, skipBlanks, isBlank]
  | cons next items ih =>
      obtain ⟨fuel, rfl⟩ := Nat.exists_eq_add_of_le' (Nat.one_le_of_lt hfuel)
      rw [List.length_cons] at hfuel
      have hmore := ih next (fun other hother => hspells other (List.mem_cons_of_mem _ hother))
        (show items.length + depth < fuel by omega)
      rw [← readItems?_blank (show isBlank '\n' = true by decide), List.map_cons] at hmore
      have hitem := hspells item (by simp) fuel
        (',' :: '\n' :: ([',', '\n'].intercalate (next.1 :: items.map Prod.fst) ++
          '\n' :: ']' :: rest)) (by omega) (by simp)
      simp [readItems?, List.intercalate_cons_cons, hitem, skipBlanks, isBlank, hmore]

theorem skipBlanks_skipBlanks (text : List Char) : skipBlanks (skipBlanks text) = skipBlanks text :=
  List.dropWhile_idempotent _ _

theorem readValue?_of_members {fuel : Nat} {text rest : List Char} {members : List (String × Json)}
    (hmembers : readMembers? fuel text = some (members, rest)) :
    readValue? (fuel + 1) ('\x7b' :: text) = some (.object members, rest) := by
  have hskip : readMembers? fuel (skipBlanks text) = some (members, rest) := by
    rw [← hmembers]
    cases fuel with
    | zero => rfl
    | succ fuel => simp only [readMembers?, skipBlanks_skipBlanks]
  have hopen : ∀ closed, skipBlanks text ≠ '\x7d' :: closed := by
    intro closed hclosed
    cases fuel with
    | zero => cases hmembers
    | succ fuel => simp [readMembers?, hclosed] at hmembers
  rw [readValue?, skipBlanks_cons_of_not_blank (by decide)]
  simp [hskip]

theorem readValue?_of_items {fuel : Nat} {text rest : List Char} {items : List Json}
    (hitems : readItems? fuel text = some (items, rest)) :
    readValue? (fuel + 1) ('[' :: text) = some (.array items, rest) := by
  have hskip : readItems? fuel (skipBlanks text) = some (items, rest) := by
    rw [← hitems]
    cases fuel with
    | zero => rfl
    | succ fuel =>
        cases fuel with
        | zero => rfl
        | succ fuel => simp only [readItems?, readValue?, skipBlanks_skipBlanks]
  have hopen : ∀ closed, skipBlanks text ≠ ']' :: closed := by
    intro closed hclosed
    cases fuel with
    | zero => cases hitems
    | succ fuel =>
        cases fuel with
        | zero => cases hitems
        | succ fuel => simp [readItems?, readValue?, hclosed, readInteger?, readNatural?] at hitems
  rw [readValue?, skipBlanks_cons_of_not_blank (by decide)]
  simp [hskip]

theorem le_length_intercalate (size : Nat) (separator : List Char) (lines : List (List Char))
    (hlines : ∀ line ∈ lines, size ≤ line.length) :
    size * lines.length ≤ (separator.intercalate lines).length := by
  induction lines with
  | nil => simp
  | cons line lines ih =>
      have hline := hlines line (by simp)
      have hmore := ih fun other hother => hlines other (List.mem_cons_of_mem _ hother)
      cases lines with
      | nil => simpa using hline
      | cons next lines =>
          simp only [List.intercalate_cons_cons, List.length_append, List.length_cons,
            Nat.mul_add, Nat.mul_one] at hmore ⊢
          omega

end Json

/-! ## Issues -/

def Issue.toJson (issue : Issue) : Json :=
  .object
    [("rule", .string issue.rule.key), ("file", .string issue.file),
     ("line", .integer issue.position.line), ("column", .integer issue.position.column),
     ("message", .string issue.message)]

namespace CommandLine.CheckRequest

open Json

def issueMembers (issue : Issue) : List (String × List Char × Json) :=
  [("rule", (Text.jsonString issue.rule.key).toList, .string issue.rule.key),
   ("file", (Text.jsonString issue.file).toList, .string issue.file),
   ("line", (toString issue.position.line).toList, .integer issue.position.line),
   ("column", (toString issue.position.column).toList, .integer issue.position.column),
   ("message", (Text.jsonString issue.message).toList, .string issue.message)]

theorem toList_jsonIssue (issue : Issue) :
    (jsonIssue issue).toList = ' ' :: ' ' :: '\x7b' :: '\n' ::
      ([',', '\n'].intercalate
        ((issueMembers issue).map fun member => memberLine member.1 member.2.1) ++
        ['\n', ' ', ' ', '\x7d']) := by
  simp [jsonIssue, issueMembers, memberLine, Text.jsonString]

theorem spells_issueMembers (issue : Issue) :
    ∀ member ∈ issueMembers issue, Spells 1 member.2.1 member.2.2 := by
  simp only [issueMembers, List.forall_mem_cons]
  exact ⟨spells_string _, spells_string _, spells_integer _, spells_integer _, spells_string _,
    by simp⟩

theorem spells_jsonIssue (issue : Issue) : Spells 7 (jsonIssue issue).toList issue.toJson := by
  intro fuel rest hfuel _
  obtain ⟨fuel, rfl⟩ := Nat.exists_eq_add_of_le' (show 1 ≤ fuel by omega)
  have hmembers := readMembers?_lines _ _ (spells_issueMembers issue)
    (show 4 + 2 ≤ fuel by omega) rest
  rw [← readMembers?_blank (show isBlank '\n' = true by decide)] at hmembers
  have hobject := readValue?_of_members hmembers
  have hblank : isBlank ' ' = true := by decide
  rw [toList_jsonIssue]
  simp only [List.cons_append, List.append_assoc, readValue?_blank hblank]
  exact hobject

theorem length_jsonIssue (issue : Issue) : 8 ≤ (jsonIssue issue).toList.length := by
  rw [toList_jsonIssue]
  simp only [List.length_cons, List.length_append, List.length_nil]
  omega

theorem read?_showIssues (issues : List Issue) :
    Json.read? (showIssues .json issues) = some (.array (issues.map Issue.toJson)) := by
  cases issues with
  | nil => rfl
  | cons issue issues =>
      let spelled (issue : Issue) : List Char × Json := ((jsonIssue issue).toList, issue.toJson)
      let lines := [',', '\n'].intercalate ((spelled issue :: issues.map spelled).map Prod.fst)
      have htext : (showIssues .json (issue :: issues)).toList =
          '[' :: '\n' :: (lines ++ ['\n', ']', '\n']) := by
        simp [showIssues, jsonIssues, lines, spelled, Function.comp_def]
      have hlength : 8 * (issues.length + 1) ≤ lines.length := by
        have hlines := le_length_intercalate 8 [',', '\n']
          ((spelled issue :: issues.map spelled).map Prod.fst) (by simp [spelled, length_jsonIssue])
        simpa [lines] using hlines
      have hspells : ∀ other ∈ spelled issue :: issues.map spelled, Spells 7 other.1 other.2 := by
        simp [spelled, spells_jsonIssue]
      have hitems := readItems?_lines _ _ hspells
        (show (issues.map spelled).length + 7 < (showIssues .json (issue :: issues)).length by
          rw [← String.length_toList, htext]; simp; omega) ['\n']
      rw [← readItems?_blank (show isBlank '\n' = true by decide)] at hitems
      have harray := readValue?_of_items hitems
      have hrest : skipBlanks ['\n'] = [] := by decide
      have hissues : (spelled issue :: issues.map spelled).map Prod.snd =
          (issue :: issues).map Issue.toJson := by
        simp [spelled]
      rw [read?, htext, harray]
      simp only [Option.bind_eq_bind, Option.bind_some, hrest, if_true, hissues]

end CommandLine.CheckRequest

end TokenSpacing
