import ShapeMerge.Json.Text
import ShapeMerge.Proofs.Json.Numeral

namespace ShapeMerge.Json.Token

section Strings

/-- What the written form of a character is read as: controls without an escape
of their own are written by their number. -/
def pieceOf (c : Char) : Piece :=
  match c with
  | '\x08' | '\x0c' | '\n' | '\r' | '\t' => .char c
  | _ => if c.toNat < 0x20 then .unit c.toNat else .char c

theorem hexUnit?_control :
    ∀ number < 0x20, hexUnit? '0' '0' (Nat.digitChar (number / 16))
        (Nat.digitChar (number % 16)) = some number := by
  decide

theorem scanString_escapedChar (c : Char) (done : List Piece)
    (rest : List Char) :
    scanString done (escapedChar c ++ rest) =
      scanString (pieceOf c :: done) rest := by
  unfold escapedChar
  split
  -- A character without a short escape is written by its number or as it is.
  case h_8 hquote hbackslash hbackspace hfeed hline hreturn htab =>
    have hpiece :
        pieceOf c = if c.toNat < 0x20 then .unit c.toNat else .char c := by
      unfold pieceOf
      split <;> simp_all
    rw [hpiece]
    split
    · rename_i hcontrol
      simp only [List.cons_append, List.nil_append, scanString,
        hexUnit?_control _ hcontrol]
    · rename_i hplain
      rw [List.singleton_append, scanString,
        if_neg (not_or.mpr ⟨hplain, hbackslash⟩)]
      -- What is left are the patterns of `scanString` before the last.
      all_goals simp_all
  all_goals simp [scanString, escaped?, pieceOf]

theorem scanString_append (text : List Char) (done : List Piece)
    (rest : List Char) :
    scanString done (text.flatMap escapedChar ++ '"' :: rest) =
      some (done.reverse ++ text.map pieceOf, rest) := by
  induction text generalizing done with
  | nil => simp [scanString]
  | cons c text ih =>
      rw [List.flatMap_cons, List.append_assoc,
        scanString_escapedChar, ih, List.reverse_cons,
        List.append_assoc, List.map_cons, List.singleton_append]

theorem joinPieces_control {number : Nat} (h : number < 0x20) (done : List Char)
    (rest : List Piece) :
    joinPieces done (.unit number :: rest) =
      joinPieces (Char.ofNat number :: done) rest := by
  have hhigh : isHighHalf number = false := by
    simp only [isHighHalf, Bool.and_eq_false_iff, decide_eq_false_iff_not]
    omega
  have hlow : isLowHalf number = false := by
    simp only [isLowHalf, Bool.and_eq_false_iff, decide_eq_false_iff_not]
    omega
  rcases rest with _ | ⟨_ | _, rest⟩ <;> simp [joinPieces, hhigh, hlow]

theorem joinPieces_pieceOf (c : Char) (done : List Char) (rest : List Piece) :
    joinPieces done (pieceOf c :: rest) = joinPieces (c :: done) rest := by
  unfold pieceOf
  split
  case h_6 =>
    split
    · rename_i hcontrol
      rw [joinPieces_control hcontrol, Char.ofNat_toNat]
    · rw [joinPieces]
  all_goals rw [joinPieces]

theorem joinPieces_map (text done : List Char) :
    joinPieces done (text.map pieceOf) =
      some (String.ofList (done.reverse ++ text)) := by
  induction text generalizing done with
  | nil => rw [List.map_nil, joinPieces, List.append_nil]
  | cons c text ih =>
      rw [List.map_cons, joinPieces_pieceOf, ih, List.reverse_cons,
        List.append_assoc, List.singleton_append]

end Strings

section Scanning

theorem behind?_append (wanted rest : List Char) :
    behind? wanted (wanted ++ rest) = some rest := by
  induction wanted with
  | nil => rfl
  | cons c wanted ih => rw [List.cons_append, behind?, if_pos rfl, ih]

def Readable (rest : List Char) : Token → Prop
  | number numeral => numeral.WellFormed ∧ Numeral.Ends rest
  | string text => text ≠ none
  | _ => True

theorem scanOne_digit {first : Char} (h : first.isDigit = true)
    (rest : List Char) :
    scanOne first rest = (Numeral.scan false (first :: rest)).map
        fun (numeral, rest) => (number numeral, rest) := by
  unfold scanOne
  split
  case h_12 => rw [if_pos h]
  all_goals exact absurd h (by decide)

theorem isBlank_digit {c : Char} (h : c.isDigit = true) :
    isBlank c = false := by
  simp only [isBlank, Bool.or_eq_false_iff, decide_eq_false_iff_not]
  refine ⟨⟨⟨?_, ?_⟩, ?_⟩, ?_⟩ <;> rintro rfl <;> exact absurd h (by decide)

theorem scanOne_chars {token : Token} {rest : List Char}
    (h : token.Readable rest) :
    ∃ first others, token.chars ++ rest = first :: others ∧
      isBlank first = false ∧ scanOne first others = some (token, rest) := by
  cases token with
  | openObject | closeObject | openArray | closeArray | comma | colon =>
      exact ⟨_, _, rfl, by decide, rfl⟩
  | null =>
      exact ⟨'n', "ull".toList ++ rest, rfl, by decide,
        by rw [scanOne, behind?_append]; rfl⟩
  | bool value =>
      cases value with
      | true =>
          exact ⟨'t', "rue".toList ++ rest, rfl, by decide,
            by rw [scanOne, behind?_append]; rfl⟩
      | false =>
          exact ⟨'f', "alse".toList ++ rest, rfl, by decide,
            by rw [scanOne, behind?_append]; rfl⟩
  | number numeral =>
      have hscan := Numeral.scan_append h.1 h.2
      rw [chars, Numeral.text_eq]
      cases hsign : numeral.negative with
      | true =>
          rw [hsign] at hscan
          exact ⟨'-', numeral.unsignedText ++ rest, rfl, by decide, by
            rw [scanOne, hscan, Option.map_some]⟩
      | false =>
          rw [hsign] at hscan
          obtain ⟨first, others, hwhole, hfirst⟩ := h.1.whole.exists_cons
          have htext : numeral.unsignedText ++ rest =
              first :: (others ++ (Numeral.fractionText numeral.fraction ++
                Numeral.exponentText numeral.exponent) ++ rest) := by
            rw [Numeral.unsignedText, hwhole, List.cons_append,
              List.cons_append]
          rw [htext] at hscan
          exact ⟨first, _, htext, isBlank_digit hfirst, by
            rw [scanOne_digit hfirst, hscan, Option.map_some]⟩
  | string text =>
      obtain ⟨value, rfl⟩ := Option.ne_none_iff_exists'.mp h
      refine ⟨'"', value.toList.flatMap escapedChar ++ '"' :: rest, ?_,
        by decide, ?_⟩
      · simp [chars, stringChars]
      · rw [scanOne, scanString_append]
        simp [joinPieces_map, String.ofList_toList]

theorem scanAll_chars {token : Token} {rest : List Char}
    (h : token.Readable rest) (done : List Token) :
    scanAll done (token.chars ++ rest) = scanAll (token :: done) rest := by
  obtain ⟨first, others, heq, hblank, hscan⟩ := scanOne_chars h
  rw [heq, scanAll, hblank, if_neg Bool.false_ne_true]
  split
  · rename_i hother
    rw [hscan] at hother
    cases hother
    rfl
  · rename_i hother
    rw [hscan] at hother
    cases hother

end Scanning

end ShapeMerge.Json.Token
