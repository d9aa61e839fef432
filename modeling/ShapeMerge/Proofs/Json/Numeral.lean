import Mathlib.Data.List.Basic
import ShapeMerge.Json.Numeral

namespace ShapeMerge.Json.Numeral

/-- Characters that may follow within a numeral. -/
def continues (c : Char) : Bool :=
  c.isDigit || c = '.' || c = 'e' || c = 'E'

def Ends (rest : List Char) : Prop :=
  ∀ c ∈ rest.head?, continues c = false

structure IsDigits (chars : List Char) : Prop where
  nonempty : chars ≠ []
  digit : ∀ c ∈ chars, c.isDigit = true

structure WellFormed (numeral : Numeral) : Prop where
  whole : IsDigits numeral.whole
  unpadded : ∀ rest, numeral.whole = '0' :: rest → rest = []
  fraction : ∀ c ∈ numeral.fraction, c.isDigit = true
  exponent : numeral.exponent = [] ∨
    ∃ sign ∈ [[], ['+'], ['-']],
      ∃ number, IsDigits number ∧ numeral.exponent = sign ++ number

def fractionText (fraction : List Char) : List Char :=
  if fraction = [] then [] else '.' :: fraction

def exponentText (exponent : List Char) : List Char :=
  if exponent = [] then [] else 'e' :: exponent

def unsignedText (numeral : Numeral) : List Char :=
  numeral.whole ++
    (fractionText numeral.fraction ++ exponentText numeral.exponent)

theorem text_eq (numeral : Numeral) :
    numeral.text = (if numeral.negative then ['-'] else []) ++
        numeral.unsignedText := by
  simp only [text, unsignedText, fractionText, exponentText, List.append_assoc]

section Scanning

variable {number rest : List Char}

theorem IsDigits.exists_cons (h : IsDigits number) :
    ∃ first others, number = first :: others ∧ first.isDigit = true := by
  obtain ⟨first, others, rfl⟩ := List.exists_cons_of_ne_nil h.nonempty
  exact ⟨first, others, rfl, h.digit first List.mem_cons_self⟩

theorem digits_append (hnumber : ∀ c ∈ number, c.isDigit = true)
    (hrest : ∀ c ∈ rest.head?, c.isDigit = false) :
    digits (number ++ rest) = number := by
  rw [digits, List.takeWhile_append_of_pos hnumber]
  cases rest with
  | nil => simp
  | cons c tail => simp [hrest c rfl]

theorem behindDigits_append (hnumber : ∀ c ∈ number, c.isDigit = true)
    (hrest : ∀ c ∈ rest.head?, c.isDigit = false) :
    behindDigits (number ++ rest) = rest := by
  rw [behindDigits, List.dropWhile_append_of_pos hnumber]
  cases rest with
  | nil => simp
  | cons c tail => simp [hrest c rfl]

theorem Ends.not_digit (h : Ends rest) :
    ∀ c ∈ rest.head?, c.isDigit = false := by
  intro c hc
  have hcontinues := h c hc
  simp only [continues, Bool.or_eq_false_iff] at hcontinues
  exact hcontinues.1.1.1

theorem exponentText_not_digit (exponent : List Char) (h : Ends rest) :
    ∀ c ∈ (exponentText exponent ++ rest).head?, c.isDigit = false := by
  unfold exponentText
  split
  · exact h.not_digit
  · simp

theorem fractionText_not_digit (fraction exponent : List Char) (h : Ends rest) :
    ∀ c ∈ (fractionText fraction ++ (exponentText exponent ++ rest)).head?,
      c.isDigit = false := by
  unfold fractionText
  split
  · exact exponentText_not_digit exponent h
  · simp

theorem scanWhole_append {whole : List Char} (h : IsDigits whole)
    (hunpadded : ∀ rest, whole = '0' :: rest → rest = [])
    (hrest : ∀ c ∈ rest.head?, c.isDigit = false) :
    scanWhole (whole ++ rest) = some (whole, rest) := by
  unfold scanWhole
  split
  · rename_i tail heq
    obtain ⟨first, others, rfl, _⟩ := h.exists_cons
    obtain ⟨rfl, rfl⟩ := List.cons.inj heq
    rw [hunpadded others rfl]
    rfl
  · rw [digits_append h.digit hrest, behindDigits_append h.digit hrest,
      if_neg h.nonempty]

theorem scanFraction_append {fraction : List Char}
    (h : ∀ c ∈ fraction, c.isDigit = true) (hpoint : ∀ c ∈ rest.head?, c ≠ '.')
    (hrest : ∀ c ∈ rest.head?, c.isDigit = false) :
    scanFraction (fractionText fraction ++ rest) = some (fraction, rest) := by
  unfold fractionText
  split
  · rename_i hnil
    rw [hnil, List.nil_append]
    unfold scanFraction
    split
    · exact absurd rfl (hpoint _ rfl)
    · rfl
  · rename_i hnonempty
    rw [List.cons_append, scanFraction, digits_append h hrest,
      behindDigits_append h hrest, if_neg hnonempty]

theorem scanSign_append {sign : List Char} (hsign : sign ∈ [[], ['+'], ['-']])
    (hrest : ∃ first others, rest = first :: others ∧ first.isDigit = true) :
    scanSign (sign ++ rest) = (sign, rest) := by
  obtain ⟨first, others, rfl, hfirst⟩ := hrest
  simp only [List.mem_cons, List.not_mem_nil, or_false] at hsign
  rcases hsign with rfl | rfl | rfl
  · rw [List.nil_append]
    unfold scanSign
    split
    · rename_i heq
      cases heq
      simp at hfirst
    · rename_i heq
      cases heq
      simp at hfirst
    · rfl
  · rfl
  · rfl

theorem scanExponent_append {exponent : List Char} (h : exponent = [] ∨
      ∃ sign ∈ [[], ['+'], ['-']], ∃ number,
        IsDigits number ∧ exponent = sign ++ number) (hrest : Ends rest) :
    scanExponent (exponentText exponent ++ rest) = some (exponent, rest) := by
  rcases h with rfl | ⟨sign, hsign, number, hnumber, rfl⟩
  · rw [exponentText, if_pos rfl, List.nil_append]
    cases rest with
    | nil => rfl
    | cons mark tail =>
        have hmark := hrest mark rfl
        simp only [continues, Bool.or_eq_false_iff, decide_eq_false_iff_not]
          at hmark
        rw [scanExponent, if_neg (not_or.mpr ⟨hmark.1.2, hmark.2⟩)]
  · have hnonempty : sign ++ number ≠ [] :=
      List.append_ne_nil_of_right_ne_nil _ hnumber.nonempty
    obtain ⟨first, others, heq, hfirst⟩ := hnumber.exists_cons
    have hscan : scanSign (sign ++ (number ++ rest)) = (sign, number ++ rest) :=
      scanSign_append hsign
        ⟨first, others ++ rest, by rw [heq, List.cons_append], hfirst⟩
    rw [exponentText, if_neg hnonempty, List.cons_append, scanExponent,
      if_pos (.inl rfl), List.append_assoc, hscan]
    simp only [digits_append hnumber.digit hrest.not_digit,
      behindDigits_append hnumber.digit hrest.not_digit,
      if_neg hnumber.nonempty]

theorem exponentText_ne_point (exponent : List Char) (h : Ends rest) :
    ∀ c ∈ (exponentText exponent ++ rest).head?, c ≠ '.' := by
  unfold exponentText
  split
  · rintro _ hc rfl
    exact absurd (h _ hc) (by decide)
  · simp

theorem scan_append {numeral : Numeral} (h : numeral.WellFormed)
    (hrest : Ends rest) :
    scan numeral.negative (numeral.unsignedText ++ rest) =
      some (numeral, rest) := by
  rw [scan, unsignedText, List.append_assoc, List.append_assoc,
    scanWhole_append h.whole h.unpadded (fractionText_not_digit _ _ hrest)]
  simp only [Option.bind_eq_bind, Option.bind_some]
  rw [scanFraction_append h.fraction (exponentText_ne_point _ hrest)
    (exponentText_not_digit _ hrest)]
  simp only [Option.bind_some, scanExponent_append h.exponent hrest]
  rfl

end Scanning

section Naturals

theorem toDigits_isDigits (number : Nat) : IsDigits (Nat.toDigits 10 number) :=
  ⟨Nat.toDigits_ne_nil, fun _ hc =>
    Nat.isDigit_of_mem_toDigits (by decide) (by decide) hc⟩

theorem toDigits_injective {left right : Nat}
    (h : Nat.toDigits 10 left = Nat.toDigits 10 right) : left = right := by
  rw [← Nat.ofDigitChars_ten_toDigits (n := left), h,
    Nat.ofDigitChars_ten_toDigits]

theorem toDigits_unpadded {number : Nat} {rest : List Char}
    (h : Nat.toDigits 10 number = '0' :: rest) : rest = [] := by
  induction number using Nat.strongRecOn generalizing rest with
  | ind number ih =>
      rw [Nat.toDigits_eq_if (by decide)] at h
      split at h
      · exact (List.cons.inj h).2.symm
      · rename_i hlarge
        obtain ⟨first, others, hfront, _⟩ :=
          (toDigits_isDigits (number / 10)).exists_cons
        rw [hfront, List.cons_append] at h
        obtain ⟨rfl, _⟩ := List.cons.inj h
        rw [ih (number / 10) (by omega) hfront, ← Nat.toDigits_zero 10]
          at hfront
        have hzero := toDigits_injective hfront
        omega

theorem wellFormed_ofNat (number : Nat) : (ofNat number).WellFormed where
  whole := toDigits_isDigits number
  unpadded _ h := toDigits_unpadded h
  fraction _ hc := nomatch hc
  exponent := .inl rfl

theorem toNat?_ofNat (number : Nat) : (ofNat number).toNat? = some number := by
  simp [toNat?, ofNat]

end Naturals

end ShapeMerge.Json.Numeral
