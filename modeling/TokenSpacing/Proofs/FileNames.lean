import TokenSpacing.Proofs.GeneratedSources

/-!
# Names of generated files

A corpus grows at its end: one source is made after the other from one stream of choices,
so more of them continue what fewer have begun.

The name of a file holds its number with zeros in front.  The zeros do not change the
number, so names tell files apart.  Numbers of one length are ordered as their digits are,
hence the names are in order as long as six digits are enough.
-/

namespace TokenSpacing

namespace Text

/-! ## Digits of one length -/

theorem ofDigitChars_lt {digits : List Char} (hdigits : ∀ c ∈ digits, c.isDigit = true) :
    Nat.ofDigitChars 10 digits 0 < 10 ^ digits.length := by
  induction digits with
  | nil => simp
  | cons c rest ih =>
      obtain ⟨hc, hrest⟩ := List.forall_mem_cons.mp hdigits
      have hbound := ih hrest
      have hdigit := Char.isDigit_iff_toNat.mp hc
      have hvalue : c.toNat - '0'.toNat ≤ 9 := Nat.sub_le_sub_right hdigit.2 '0'.toNat
      rw [Nat.ofDigitChars_cons, Nat.mul_zero, Nat.zero_add,
        Nat.ofDigitChars_eq_ofDigitChars_zero, List.length_cons, Nat.pow_succ]
      have hhigh := Nat.mul_le_mul_left (10 ^ rest.length) hvalue
      omega

theorem append_lt_of_ofDigitChars_lt {first second : List Char} (before after : List Char)
    (hlength : first.length = second.length)
    (hfirst : ∀ c ∈ first, c.isDigit = true) (hsecond : ∀ c ∈ second, c.isDigit = true)
    (hless : Nat.ofDigitChars 10 first 0 < Nat.ofDigitChars 10 second 0) :
    first ++ before < second ++ after := by
  induction first generalizing second with
  | nil =>
      obtain rfl := List.eq_nil_of_length_eq_zero hlength.symm
      simp at hless
  | cons c first ih =>
      cases second with
      | nil => simp at hlength
      | cons d second =>
          obtain ⟨hc, hbelow⟩ := List.forall_mem_cons.mp hfirst
          obtain ⟨hd, habove⟩ := List.forall_mem_cons.mp hsecond
          have hrest : first.length = second.length := Nat.succ.inj hlength
          have hcode := Char.isDigit_iff_toNat.mp hc
          have hother := Char.isDigit_iff_toNat.mp hd
          have hlow := ofDigitChars_lt habove
          simp only [Nat.ofDigitChars_cons, Nat.mul_zero, Nat.zero_add] at hless
          rw [Nat.ofDigitChars_eq_ofDigitChars_zero, hrest,
            Nat.ofDigitChars_eq_ofDigitChars_zero (l := second)] at hless
          refine List.cons_lt_cons_iff.mpr ?_
          rcases Nat.lt_trichotomy c.toNat d.toNat with hlt | heq | hgt
          · exact .inl hlt
          · have hsame : c = d := Char.toNat_inj.mp heq
            subst hsame
            exact .inr ⟨rfl, ih hrest hbelow habove (Nat.lt_of_add_lt_add_left hless)⟩
          · have hnext : d.toNat - '0'.toNat + 1 ≤ c.toNat - '0'.toNat := by omega
            have hhigh := Nat.mul_le_mul_left (10 ^ second.length) hnext
            rw [Nat.mul_succ] at hhigh
            omega

end Text

namespace Corpus

/-! ## Numbers in names -/

theorem toList_paddedNumber (number : Nat) :
    (paddedNumber number).toList =
      List.replicate (6 - (Nat.toDigits 10 number).length) '0' ++ Nat.toDigits 10 number := by
  simp [paddedNumber, Nat.repr_eq_ofList_toDigits]

theorem ofDigitChars_paddedNumber (number : Nat) :
    Nat.ofDigitChars 10 (paddedNumber number).toList 0 = number := by
  rw [toList_paddedNumber, Nat.ofDigitChars_append]
  simp

theorem isDigit_of_mem_paddedNumber {number : Nat} {c : Char}
    (hc : c ∈ (paddedNumber number).toList) : c.isDigit = true := by
  rw [toList_paddedNumber] at hc
  rcases List.mem_append.mp hc with hzero | hdigit
  · rw [List.eq_of_mem_replicate hzero]
    rfl
  · exact Nat.isDigit_of_mem_toDigits (by decide) (by decide) hdigit

theorem length_paddedNumber {number : Nat} (hnumber : number < 1000000) :
    (paddedNumber number).toList.length = 6 := by
  have hdigits : (Nat.toDigits 10 number).length ≤ 6 :=
    (Nat.length_toDigits_le_iff (by decide) (by decide)).mpr hnumber
  rw [toList_paddedNumber, List.length_append, List.length_replicate]
  omega

theorem toList_fileName (number : Nat) :
    (fileName number).toList =
      "Case".toList ++ ((paddedNumber number).toList ++ ".java".toList) := by
  simp [fileName]

theorem fileName_injective : Function.Injective fileName := by
  intro first second hname
  have hlists := congrArg String.toList hname
  rw [toList_fileName, toList_fileName] at hlists
  have hdigits := List.append_cancel_right (List.append_cancel_left hlists)
  rw [← ofDigitChars_paddedNumber first, hdigits, ofDigitChars_paddedNumber]

theorem fileName_lt {first second : Nat} (hless : first < second) (hsecond : second < 1000000) :
    fileName first < fileName second := by
  rw [String.lt_iff, toList_fileName, toList_fileName]
  refine List.append_left_lt (Text.append_lt_of_ofDigitChars_lt _ _ ?_ ?_ ?_ ?_)
  · rw [length_paddedNumber (hless.trans hsecond), length_paddedNumber hsecond]
  · exact fun c => isDigit_of_mem_paddedNumber
  · exact fun c => isDigit_of_mem_paddedNumber
  · simpa only [ofDigitChars_paddedNumber] using hless

/-- Seven digits are too many: the names are not in order any more. -/
theorem not_fileName_lt : ¬ fileName 999999 < fileName 1000000 := by
  decide +kernel

/-! ## Growing corpora -/

variable {Source α : Type}

theorem repeated_add (generate : Gen Source α) (first second : Nat) (start : Source) :
    (Draws.repeated generate (first + second) start).1 =
      (Draws.repeated generate first start).1 ++
        (Draws.repeated generate second (Draws.repeated generate first start).2).1 := by
  induction first generalizing start with
  | zero => rw [Nat.zero_add]; rfl
  | succ first ih =>
      rw [Nat.succ_add]
      exact congrArg ((generate start).1 :: ·) (ih (generate start).2)

theorem length_sources (seed : Int) (count : Nat) : (sources seed count).length = count :=
  (Always.repeated (.trivial (source Twister.draws)) count (Twister.ofSeed seed)).1

theorem sources_append (seed : Int) {fewer count : Nat} (hcount : fewer ≤ count) :
    ∃ later, sources seed count = sources seed fewer ++ later := by
  obtain ⟨more, rfl⟩ := Nat.exists_eq_add_of_le hcount
  exact ⟨_, repeated_add (source Twister.draws) fewer more (Twister.ofSeed seed)⟩

theorem files_prefix_files (seed : Int) {fewer count : Nat} (hcount : fewer ≤ count) :
    files seed fewer <+: files seed count := by
  obtain ⟨later, hlater⟩ := sources_append seed hcount
  rw [files, files, hlater, List.zipIdx_append, List.map_append]
  exact List.prefix_append _ _

theorem names_eq (seed : Int) (count : Nat) :
    (files seed count).map Prod.fst = (List.range count).map fileName := by
  have hnumbers := List.zipIdx_map_snd 0 (sources seed count)
  rw [length_sources, ← List.range_eq_range'] at hnumbers
  rw [files, List.map_map, ← hnumbers, List.map_map]
  rfl

theorem exists_number_of_mem {seed : Int} {count : Nat} {entry : String × List Char}
    (hentry : entry ∈ files seed count) : ∃ number, fileName number = entry.1 := by
  have hname : entry.1 ∈ (List.range count).map fileName :=
    names_eq seed count ▸ List.mem_map_of_mem hentry
  obtain ⟨number, -, hnumber⟩ := List.mem_map.mp hname
  exact ⟨number, hnumber⟩

theorem nodup_names (seed : Int) (count : Nat) : ((files seed count).map Prod.fst).Nodup := by
  rw [names_eq]
  exact List.nodup_range.map fileName_injective

theorem pairwise_names_iff (seed : Int) (count : Nat) :
    ((files seed count).map Prod.fst).Pairwise (· < ·) ↔ count ≤ 1000000 := by
  rw [names_eq, List.pairwise_map]
  constructor
  · intro hnames
    have hpair : ∀ first second, first < second → second < count →
        fileName first < fileName second := by
      intro first second hless hsecond
      have hlength : (List.range count).length = count := List.length_range
      have hrel := List.pairwise_iff_getElem.mp hnames first second
        (by rw [hlength]; exact hless.trans hsecond) (by rw [hlength]; exact hsecond) hless
      rw [List.getElem_range, List.getElem_range] at hrel
      exact hrel
    by_contra hmany
    exact not_fileName_lt (hpair 999999 1000000 (by omega) (by omega))
  · intro hcount
    refine List.pairwise_lt_range.imp_of_mem fun _ hsecond hless => fileName_lt hless ?_
    have hbound := List.mem_range.mp hsecond
    omega

theorem ends_with_java {seed : Int} {count : Nat} {entry : String × List Char}
    (hentry : entry ∈ files seed count) : ".java".toList <:+ entry.1.toList := by
  obtain ⟨number, hnumber⟩ := exists_number_of_mem hentry
  rw [← hnumber, toList_fileName, ← List.append_assoc]
  exact List.suffix_append _ _

theorem head?_name {seed : Int} {count : Nat} {entry : String × List Char}
    (hentry : entry ∈ files seed count) : entry.1.toList.head? = some 'C' := by
  obtain ⟨number, hnumber⟩ := exists_number_of_mem hentry
  rw [← hnumber, toList_fileName]
  rfl

end Corpus

end TokenSpacing
