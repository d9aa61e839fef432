import ShapeMerge.Json.Text
import ShapeMerge.Proofs.Json.Tokens

namespace ShapeMerge.Json

open Numeral (Ends)

/-- Values with a written form: numbers are well-formed numerals and strings are
texts. -/
inductive Writable : Json → Prop
  | null : Writable .null
  | bool (value : Bool) : Writable (.bool value)
  | number {numeral : Numeral} (h : numeral.WellFormed) :
      Writable (.number numeral)
  | text (value : String) : Writable (.string (some value))
  | array {items : List Json} (h : ∀ item ∈ items, Writable item) :
      Writable (.array items)
  | object {members : List (Option String × Json)}
      (hnames : ∀ member ∈ members, member.1 ≠ none)
      (hvalues : ∀ member ∈ members, Writable member.2) :
      Writable (.object members)

section Scanning

/-- The tokens are scanned from their text, whatever has been scanned before it,
if no numeral runs on behind it. -/
def Scans (tokens : List Token) : Prop :=
  ∀ (done : List Token) (rest : List Char), Ends rest →
    Token.scanAll done (tokens.flatMap Token.chars ++ rest) =
      Token.scanAll (tokens.reverse ++ done) rest

theorem scans_nil : Scans [] := fun _ _ _ => rfl

theorem scans_number {numeral : Numeral} (h : numeral.WellFormed) :
    Scans [.number numeral] := by
  intro done rest hrest
  have hreadable : Token.Readable rest (.number numeral) := ⟨h, hrest⟩
  rw [List.flatMap_singleton, Token.scanAll_chars hreadable,
    List.reverse_singleton, List.singleton_append]

variable {left right tokens : List Token}

theorem Scans.cons (htokens : Scans tokens) (token : Token)
    (h : ∀ rest, token.Readable rest) : Scans (token :: tokens) := by
  intro done rest hrest
  rw [List.flatMap_cons, List.append_assoc,
    Token.scanAll_chars (h _), htokens _ _ hrest,
    List.reverse_cons, List.append_assoc, List.singleton_append]

theorem Scans.append (hleft : Scans left) (hright : Scans right)
    (hends : ∀ rest, Ends rest → Ends (right.flatMap Token.chars ++ rest)) :
    Scans (left ++ right) := by
  intro done rest hrest
  rw [List.flatMap_append, List.append_assoc, hleft _ _ (hends rest hrest),
    hright _ _ hrest, List.reverse_append, List.append_assoc]

theorem Scans.close (h : Scans tokens) (token : Token)
    (htoken : token = .closeArray ∨ token = .closeObject) :
    Scans (tokens ++ [token]) := by
  rcases htoken with rfl | rfl
  all_goals
    refine h.append (scans_nil.cons _ fun _ => trivial) fun rest _ => ?_
    rintro c ⟨⟩
    decide

theorem ends_itemTokens (items : List Json) (rest : List Char) (h : Ends rest) :
    Ends ((itemTokens items).flatMap Token.chars ++ rest) := by
  cases items with
  | nil => rwa [itemTokens]
  | cons item items =>
      rintro c ⟨⟩
      decide

theorem scans_itemTokens {items : List Json}
    (h : ∀ item ∈ items, Scans item.tokens) : Scans (itemTokens items) := by
  induction items with
  | nil => rw [itemTokens]; exact scans_nil
  | cons item items ih =>
      obtain ⟨hitem, hitems⟩ := List.forall_mem_cons.mp h
      rw [itemTokens]
      exact (hitem.cons .comma fun _ => trivial).append (ih hitems)
        (ends_itemTokens items)

theorem scans_member {member : Option String × Json} (hname : member.1 ≠ none)
    (hvalue : Scans member.2.tokens) :
    Scans (.string member.1 :: .colon :: member.2.tokens) :=
  (hvalue.cons .colon fun _ => trivial).cons (.string member.1) fun _ => hname

theorem ends_memberTokens (members : List (Option String × Json))
    (rest : List Char) (h : Ends rest) :
    Ends ((memberTokens members).flatMap Token.chars ++ rest) := by
  cases members with
  | nil => rwa [memberTokens]
  | cons member members =>
      rintro c ⟨⟩
      decide

theorem scans_memberTokens {members : List (Option String × Json)}
    (hnames : ∀ member ∈ members, member.1 ≠ none)
    (h : ∀ member ∈ members, Scans member.2.tokens) :
    Scans (memberTokens members) := by
  induction members with
  | nil => rw [memberTokens]; exact scans_nil
  | cons member members ih =>
      obtain ⟨hname, hnames⟩ := List.forall_mem_cons.mp hnames
      obtain ⟨hvalue, hvalues⟩ := List.forall_mem_cons.mp h
      rw [memberTokens]
      exact ((scans_member hname hvalue).cons .comma fun _ => trivial).append
        (ih hnames hvalues) (ends_memberTokens members)

theorem Writable.scans {json : Json} (h : json.Writable) :
    Scans json.tokens := by
  induction h with
  | null => exact scans_nil.cons .null fun _ => trivial
  | bool value => exact scans_nil.cons (.bool value) fun _ => trivial
  | number h => exact scans_number h
  | text value =>
      exact scans_nil.cons (.string value) fun _ => Option.some_ne_none value
  | @array items h ih =>
      cases items with
      | nil =>
          exact (scans_nil.cons .closeArray fun _ => trivial).cons .openArray
            fun _ => trivial
      | cons item items =>
          obtain ⟨hitem, hitems⟩ := List.forall_mem_cons.mp ih
          rw [tokens]
          exact ((hitem.cons .openArray fun _ => trivial).append
            (scans_itemTokens hitems) (ends_itemTokens items)).close
            .closeArray (.inl rfl)
  | @object members hnames h ih =>
      cases members with
      | nil =>
          exact (scans_nil.cons .closeObject fun _ => trivial).cons .openObject
            fun _ => trivial
      | cons member members =>
          obtain ⟨hname, hnames⟩ := List.forall_mem_cons.mp hnames
          obtain ⟨hvalue, hvalues⟩ := List.forall_mem_cons.mp ih
          rw [tokens]
          exact (((scans_member hname hvalue).cons .openObject fun _ =>
            trivial).append (scans_memberTokens hnames hvalues)
            (ends_memberTokens members)).close .closeObject (.inr rfl)

theorem Writable.scan_render {json : Json} (h : json.Writable) :
    Token.scan json.render = some json.tokens := by
  have hscan := h.scans [] [] fun _ hc => nomatch hc
  rw [List.append_nil, List.append_nil] at hscan
  rw [Token.scan, render, String.toList_ofList, hscan, Token.scanAll,
    List.reverse_reverse]

end Scanning

section Reading

open Reader (start step)

/-- Where a value has to come next, the reader takes the tokens of the value as
that value. -/
def Reads (json : Json) : Prop :=
  ∀ (frames : List Frame) (rest : List Token), (json.tokens ++ rest).foldlM step
      (frames, .value) = rest.foldlM step (frames, .behind json)

theorem foldlM_itemOrEnd (json : Json) (frames : List Frame)
    (rest : List Token) :
    (json.tokens ++ rest).foldlM step (frames, .itemOrEnd) =
      (json.tokens ++ rest).foldlM step (frames, .value) := by
  obtain ⟨first, others, htokens, hfirst⟩ :
      ∃ first others, json.tokens = first :: others ∧ first ≠ .closeArray := by
    cases json with
    | array items => cases items <;> simp [tokens]
    | object members => cases members <;> simp [tokens]
    | _ => simp [tokens]
  have hstep :
      step (frames, .itemOrEnd) first = step (frames, .value) first := by
    simp [step, hfirst]
  rw [htokens, List.cons_append, List.foldlM_cons, List.foldlM_cons, hstep]

variable (frames : List Frame) (rest : List Token)

theorem foldlM_itemTokens {items : List Json} (h : ∀ item ∈ items, Reads item)
    (done : List Json) (item : Json) :
    (itemTokens items ++ .closeArray :: rest).foldlM step
        (.array done :: frames, .behind item) =
      rest.foldlM step
        (frames, .behind (.array (done.reverse ++ item :: items))) := by
  induction items generalizing done item with
  | nil => simp [itemTokens, step]
  | cons next items ih =>
      obtain ⟨hnext, hitems⟩ := List.forall_mem_cons.mp h
      calc (itemTokens (next :: items) ++ .closeArray :: rest).foldlM step
            (.array done :: frames, .behind item)
        _ = (tokens next ++ (itemTokens items ++ .closeArray :: rest)).foldlM
            step (.array (item :: done) :: frames, .value) := by
            simp [itemTokens, step]
        _ = (itemTokens items ++ .closeArray :: rest).foldlM step
              (.array (item :: done) :: frames, .behind next) := hnext _ _
        _ = rest.foldlM step (frames,
              .behind (.array ((item :: done).reverse ++ next :: items))) :=
            ih hitems (item :: done) next
        _ = rest.foldlM step (frames,
              .behind (.array (done.reverse ++ item :: next :: items))) := by
            rw [List.reverse_cons, List.append_assoc, List.singleton_append]

theorem foldlM_memberTokens {members : List (Option String × Json)}
    (h : ∀ member ∈ members, Reads member.2)
    (done : List (Option String × Json)) (name : Option String) (value : Json) :
    (memberTokens members ++ .closeObject :: rest).foldlM step
        (.object done name :: frames, .behind value) = rest.foldlM step (frames,
          .behind (.object (done.reverse ++ (name, value) :: members))) := by
  induction members generalizing done name value with
  | nil => simp [memberTokens, step]
  | cons next members ih =>
      obtain ⟨hnext, hmembers⟩ := List.forall_mem_cons.mp h
      calc (memberTokens (next :: members) ++ .closeObject :: rest).foldlM step
            (.object done name :: frames, .behind value)
        _ = (tokens next.2 ++
              (memberTokens members ++ .closeObject :: rest)).foldlM step
                (.object ((name, value) :: done) next.1 :: frames, .value) := by
            simp [memberTokens, step]
        _ = (memberTokens members ++ .closeObject :: rest).foldlM step
              (.object ((name, value) :: done) next.1 :: frames,
                .behind next.2) := hnext _ _
        _ = rest.foldlM step (frames, .behind
              (.object (((name, value) :: done).reverse ++ next :: members))) :=
            ih hmembers ((name, value) :: done) next.1 next.2
        _ = rest.foldlM step (frames, .behind
          (.object (done.reverse ++ (name, value) :: next :: members))) := by
            rw [List.reverse_cons, List.append_assoc, List.singleton_append]

theorem Writable.reads {json : Json} (h : json.Writable) : Reads json := by
  intro frames rest
  induction h generalizing frames rest with
  | null | bool | number | text => simp [tokens, step, start]
  | @array items h ih =>
      cases items with
      | nil => simp [tokens, step, start]
      | cons item items =>
          obtain ⟨hitem, hitems⟩ := List.forall_mem_cons.mp ih
          calc (tokens (.array (item :: items)) ++ rest).foldlM step
                (frames, .value)
            _ = (tokens item ++
                  (itemTokens items ++ .closeArray :: rest)).foldlM step
                    (.array [] :: frames, .itemOrEnd) := by
                simp [tokens, step, start]
            _ = (tokens item ++
                  (itemTokens items ++ .closeArray :: rest)).foldlM step
                    (.array [] :: frames, .value) := foldlM_itemOrEnd item _ _
            _ = (itemTokens items ++ .closeArray :: rest).foldlM step
                  (.array [] :: frames, .behind item) := hitem _ _
            _ = rest.foldlM step (frames, .behind (.array (item :: items))) :=
                foldlM_itemTokens frames rest hitems [] item
  | @object members hnames h ih =>
      cases members with
      | nil => simp [tokens, step, start]
      | cons member members =>
          obtain ⟨hvalue, hvalues⟩ := List.forall_mem_cons.mp ih
          calc (tokens (.object (member :: members)) ++ rest).foldlM step
                (frames, .value)
            _ = (tokens member.2 ++
                  (memberTokens members ++ .closeObject :: rest)).foldlM step
                    (.object [] member.1 :: frames, .value) := by
                simp [tokens, step, start]
            _ = (memberTokens members ++ .closeObject :: rest).foldlM step
                  (.object [] member.1 :: frames, .behind member.2) :=
                hvalue _ _
            _ = rest.foldlM step
                (frames, .behind (.object (member :: members))) :=
                foldlM_memberTokens frames rest hvalues [] member.1 member.2

end Reading

theorem parse?_render {json : Json} (h : json.Writable) :
    parse? json.render = some json := by
  have hreads := h.reads [] []
  rw [List.append_nil] at hreads
  rw [parse?, h.scan_render]
  exact congrArg (· >>= Reader.accept) hreads

end ShapeMerge.Json
