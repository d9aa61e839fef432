import Mathlib.Data.List.Sublists
import Mathlib.Data.Nat.Choose.Basic
import ShapeMerge.Proofs.Partition.Maximal

namespace ShapeMerge.Partition

/-!
How the greedy partition calls a test that may change a state and may fail.
Every call asks about a candidate and one behind it, no two calls ask about the
same positions, and a failing call is the last.
-/

section Noting

variable {α σ ε : Type}

structure Call (α ε : Type) where
  member : Placed α
  candidate : Placed α
  answer : Except ε Bool

namespace Call

def asked (call : Call α ε) : List (Placed α) :=
  [call.member, call.candidate]

def positions (call : Call α ε) : Nat × Nat :=
  (call.member.2, call.candidate.2)

def Answered (call : Call α ε) : Prop :=
  ∃ answer, call.answer = .ok answer

end Call

/-- The outcome of a computation that starts in a state, and the state it
leaves, also by failing. -/
def perform (computation : ExceptT ε (StateM σ) β) (state : σ) :
    Except ε β × σ :=
  computation.run.run state

/-- A test for candidates with their positions that writes down every call. -/
def noting (test : α → α → ExceptT ε (StateM σ) Bool)
    (member candidate : Placed α) :
    ExceptT ε (StateM (σ × List (Call α ε))) Bool :=
  ExceptT.mk fun (state, calls) =>
    let (answer, after) := perform (test member.1 candidate.1) state
    (answer, (after, calls ++ [⟨member, candidate, answer⟩]))

theorem perform_noting (test : α → α → ExceptT ε (StateM σ) Bool)
    (member candidate : Placed α) (state : σ) (calls : List (Call α ε)) :
    perform (noting test member candidate) (state, calls) =
      match perform (test member.1 candidate.1) state with
      | (answer, after) =>
          (answer, (after, calls ++ [⟨member, candidate, answer⟩])) :=
  rfl

/-- All calls are answered, or all but the last, which fails with the error of
the whole. -/
inductive Ending : Except ε β → List (Call α ε) → Prop
  | answered {value : β} {calls : List (Call α ε)}
      (h : ∀ call ∈ calls, call.Answered) : Ending (.ok value) calls
  | failed {error : ε} {calls : List (Call α ε)} {last : Call α ε}
      (h : ∀ call ∈ calls, call.Answered) (hlast : last.answer = .error error) :
      Ending (.error error) (calls ++ [last])

theorem Ending.prepend {outcome : Except ε β} {calls earlier : List (Call α ε)}
    (hearlier : ∀ call ∈ earlier, call.Answered) (h : Ending outcome calls) :
    Ending outcome (earlier ++ calls) := by
  cases h with
  | answered h => exact .answered (List.forall_mem_append.mpr ⟨hearlier, h⟩)
  | failed h hlast =>
      rw [← List.append_assoc]
      exact .failed (List.forall_mem_append.mpr ⟨hearlier, h⟩) hlast

theorem Ending.exists_value {outcome : Except ε β} {calls : List (Call α ε)}
    (h : Ending outcome calls) (hall : ∀ call ∈ calls, call.Answered) :
    ∃ value, outcome = .ok value := by
  cases h with
  | answered _ => exact ⟨_, rfl⟩
  | failed _ hlast =>
      obtain ⟨answer, hanswer⟩ :=
        hall _ (List.mem_append_right _ (List.mem_singleton_self _))
      rw [hlast] at hanswer
      cases hanswer

theorem Ending.stops {outcome : Except ε β} {earlier later : List (Call α ε)}
    {call : Call α ε}
    {error : ε} (h : Ending outcome (earlier ++ call :: later))
    (hfails : call.answer = .error error) :
    later = [] ∧ outcome = .error error := by
  have hrefuses : ¬ call.Answered := fun hanswered => by
    obtain ⟨answer, hanswer⟩ := hanswered
    rw [hfails] at hanswer
    cases hanswer
  generalize hcalls : earlier ++ call :: later = calls at h
  cases h with
  | answered h => exact absurd (h call (hcalls ▸ by simp)) hrefuses
  | @failed error' others last h hlast =>
      rcases List.eq_nil_or_concat later with rfl | ⟨init, final, rfl⟩
      · obtain ⟨_, hsame⟩ := List.append_inj' hcalls rfl
        cases hsame
        exact ⟨rfl,
          congrArg Except.error (Except.error.inj (hlast.symm.trans hfails))⟩
      · have hinit : earlier ++ call :: init = others := by
          have hlists :
              (earlier ++ call :: init) ++ [final] = others ++ [last] := by
            simpa using hcalls
          exact (List.append_inj' hlists rfl).1
        exact absurd (h call (hinit ▸ by simp)) hrefuses

/-- A computation that writes its calls down behind those before it, and does
else what another does that does not.  What becomes of it and the calls meet a
condition. -/
def Performs (noted : ExceptT ε (StateM (σ × List (Call α ε))) β)
    (plain : ExceptT ε (StateM σ) γ) (view : β → γ)
    (condition : Except ε β → List (Call α ε) → Prop) : Prop :=
  ∀ state before, ∃ outcome calls after,
    perform noted (state, before) = (outcome, (after, before ++ calls)) ∧
      perform plain state = (outcome.map view, after) ∧
      Ending outcome calls ∧ condition outcome calls

theorem perform_bind (computation : ExceptT ε (StateM σ) β)
    (rest : β → ExceptT ε (StateM σ) γ) (state : σ) :
    perform (computation >>= rest) state = match perform computation state with
      | (.ok value, after) => perform (rest value) after
      | (.error error, after) => (.error error, after) := by
  rw [perform, ExceptT.run_bind, StateT.run_bind, perform]
  cases computation.run.run state with
  | mk outcome after => cases outcome <;> rfl

namespace Performs

variable {β γ δ κ : Type} {condition : Except ε β → List (Call α ε) → Prop}

theorem of_value (value : β) (view : β → γ) (h : condition (.ok value) []) :
    Performs (σ := σ) (pure value) (pure (view value)) view condition :=
  fun state before =>
    ⟨.ok value, [], state, by rw [List.append_nil]; rfl, rfl,
      .answered (List.forall_mem_nil _), h⟩

theorem of_call (test : α → α → ExceptT ε (StateM σ) Bool)
    (member candidate : Placed α) :
    Performs (noting test member candidate) (test member.1 candidate.1) id
      fun outcome calls => calls = [⟨member, candidate, outcome⟩] := by
  intro state before
  generalize hperformed : perform (test member.1 candidate.1) state = performed
  obtain ⟨outcome, after⟩ := performed
  refine ⟨outcome, [⟨member, candidate, outcome⟩], after, ?_, ?_, ?_, rfl⟩
  · rw [perform_noting, hperformed]
  · cases outcome <;> rfl
  · cases outcome with
    | ok answer => exact .answered (by simp [Call.Answered])
    | error error =>
        have hnone : ∀ call ∈ ([] : List (Call α ε)), call.Answered :=
          List.forall_mem_nil _
        exact .failed hnone rfl

theorem bind {first : ExceptT ε (StateM (σ × List (Call α ε))) β}
    {plainFirst : ExceptT ε (StateM σ) γ}
    {view : β → γ} {rest : β → ExceptT ε (StateM (σ × List (Call α ε))) δ}
    {plainRest : γ → ExceptT ε (StateM σ) κ}
    {viewRest : δ → κ} {wanted : Except ε δ → List (Call α ε) → Prop}
    (hfirst : Performs first plainFirst view condition)
    (hrest : ∀ value calls, condition (.ok value) calls →
      Performs (rest value) (plainRest (view value)) viewRest
        fun outcome more => wanted outcome (calls ++ more))
    (hfails : ∀ error calls, condition (.error error) calls →
      wanted (.error error) calls) :
    Performs (first >>= rest) (plainFirst >>= plainRest) viewRest wanted := by
  intro state before
  obtain ⟨outcome, calls, after, hnoted, hplain, hending, hcondition⟩ :=
    hfirst state before
  cases hending with
  | @answered value _ hanswered =>
      obtain ⟨outcome, more, final, hnotedRest, hplainRest,
        hendingRest, hwanted⟩ :=
        hrest value calls hcondition after (before ++ calls)
      refine ⟨outcome, calls ++ more, final, ?_, ?_,
        hendingRest.prepend hanswered, hwanted⟩
      · rw [perform_bind, hnoted, ← List.append_assoc]
        exact hnotedRest
      · rw [perform_bind, hplain]
        exact hplainRest
  | @failed error calls last hanswered hlast =>
      refine ⟨.error error, _, after, ?_, ?_, .failed hanswered hlast,
        hfails _ _ hcondition⟩
      · rw [perform_bind, hnoted]
      · rw [perform_bind, hplain]
        rfl

theorem mono {first : ExceptT ε (StateM (σ × List (Call α ε))) β}
    {plainFirst : ExceptT ε (StateM σ) γ} {view : β → γ}
    {wanted : Except ε β → List (Call α ε) → Prop}
    (h : Performs first plainFirst view condition)
    (himp : ∀ outcome calls, condition outcome calls → wanted outcome calls) :
    Performs first plainFirst view wanted := by
  intro state before
  obtain ⟨outcome, calls, after, hnoted, hplain, hending, hcondition⟩ :=
    h state before
  exact ⟨outcome, calls, after, hnoted, hplain, hending, himp _ _ hcondition⟩

end Performs

/-- Calls about a member or candidate and a candidate behind it, no two about
the same. -/
structure Asks (members candidates : List (Placed α))
    (calls : List (Call α ε)) : Prop where
  within : ∀ call ∈ calls, call.asked.Sublist (members ++ candidates)
  behind : ∀ call ∈ calls, call.candidate ∈ candidates
  once : (calls.map Call.asked).Nodup

/-- What a walk comes to: those that wait have not been held against each
other. -/
structure Divides (members candidates : List (Placed α))
    (walked : List (Placed α) × List (Placed α))
    (calls : List (Call α ε)) : Prop where
  split : (walked.1 ++ walked.2).Perm (members ++ candidates)
  kept : members ⊆ walked.1
  waiting : walked.2.Sublist candidates
  met : ∀ call ∈ calls, call.member ∈ walked.1

theorem Asks.append {members candidates : List (Placed α)}
    {calls more : List (Call α ε)} (h : Asks members candidates calls)
    (hmore : Asks members candidates more)
    (hapart : ∀ call ∈ calls, ∀ other ∈ more, call.asked ≠ other.asked) :
    Asks members candidates (calls ++ more) where
  within := List.forall_mem_append.mpr ⟨h.within, hmore.within⟩
  behind := List.forall_mem_append.mpr ⟨h.behind, hmore.behind⟩
  once := by
    rw [List.map_append, List.nodup_append']
    refine ⟨h.once, hmore.once, fun asked hasked hother => ?_⟩
    obtain ⟨call, hcall, rfl⟩ := List.mem_map.mp hasked
    obtain ⟨other, hin, hsame⟩ := List.mem_map.mp hother
    exact hapart call hcall other hin hsame.symm

theorem Asks.mono {members candidates more others : List (Placed α)}
    {calls : List (Call α ε)} (h : Asks members candidates calls)
    (hall : (members ++ candidates).Sublist (more ++ others))
    (hcandidates : candidates ⊆ others) : Asks more others calls where
  within call hcall := (h.within call hcall).trans hall
  behind call hcall := hcandidates (h.behind call hcall)
  once := h.once

section Admission

variable {members rest : List (Placed α)} {candidate : Placed α}
  {calls : List (Call α ε)}

theorem mem_of_admission
    (hcalls : (calls.map Call.asked).IsPrefix (members.map ([·, candidate])))
    {call : Call α ε} (hcall : call ∈ calls) :
    call.member ∈ members ∧ call.candidate = candidate := by
  obtain ⟨member, hmember, hasked⟩ :=
    List.mem_map.mp (hcalls.subset (List.mem_map_of_mem hcall))
  obtain ⟨rfl, hlist⟩ := List.cons.inj hasked
  exact ⟨hmember, (List.cons.inj hlist).1.symm⟩

theorem asks_of_admission (h : members.Nodup)
    (hcalls : (calls.map Call.asked).IsPrefix (members.map ([·, candidate]))) :
    Asks members (candidate :: rest) calls where
  within call hcall := by
    obtain ⟨hmember, hcandidate⟩ := mem_of_admission hcalls hcall
    have hpair :=
      (List.singleton_sublist.mpr hmember).append (List.singleton_sublist.mpr
        (List.mem_cons_self (a := candidate) (l := rest)))
    rw [← hcandidate] at hpair ⊢
    exact hpair
  behind call hcall := by
    rw [(mem_of_admission hcalls hcall).2]
    exact List.mem_cons_self
  once := hcalls.sublist.nodup (h.map fun _ _ hsame => (List.cons.inj hsame).1)

theorem Asks.after_admission {others : List (Placed α)} {more : List (Call α ε)}
    (h : (members ++ candidate :: rest).Nodup)
    (hcalls : (calls.map Call.asked).IsPrefix (members.map ([·, candidate])))
    (hmore : Asks others rest more)
    (hothers : (others ++ rest).Sublist (members ++ candidate :: rest)) :
    Asks members (candidate :: rest) (calls ++ more) := by
  obtain ⟨hmembers, hcandidates, _⟩ := List.nodup_append'.mp h
  refine (asks_of_admission hmembers hcalls).append
    (hmore.mono hothers (List.subset_cons_self candidate rest))
    fun call hcall other hother hsame => ?_
  have hcandidate : call.candidate = other.candidate :=
    (List.cons.inj (List.cons.inj hsame).2).1
  rw [(mem_of_admission hcalls hcall).2] at hcandidate
  exact (List.nodup_cons.mp hcandidates).1
    (hcandidate ▸ hmore.behind other hother)

theorem Divides.after_joining {all waiting : List (Placed α)}
    {more : List (Call α ε)}
    (hcalls : (calls.map Call.asked).IsPrefix (members.map ([·, candidate])))
    (h : Divides (members ++ [candidate]) rest (all, waiting) more) :
    Divides members (candidate :: rest) (all, waiting) (calls ++ more) where
  split := by simpa using h.split
  kept := fun _ hmember => h.kept (List.mem_append_left _ hmember)
  waiting := h.waiting.cons candidate
  met := List.forall_mem_append.mpr ⟨fun _ hcall =>
    h.kept (List.mem_append_left _ (mem_of_admission hcalls hcall).1), h.met⟩

theorem Divides.after_waiting {all waiting : List (Placed α)}
    {more : List (Call α ε)}
    (hcalls : (calls.map Call.asked).IsPrefix (members.map ([·, candidate])))
    (h : Divides members rest (all, waiting) more) :
    Divides members (candidate :: rest) (all, candidate :: waiting)
      (calls ++ more) where
  split := List.perm_middle.trans
    ((h.split.cons candidate).trans List.perm_middle.symm)
  kept := h.kept
  waiting := h.waiting.cons_cons candidate
  met := List.forall_mem_append.mpr
    ⟨fun _ hcall => h.kept (mem_of_admission hcalls hcall).1, h.met⟩

end Admission

theorem forall_of_error {error : ε} {wanted : β → Prop} :
    ∀ value, (.error error : Except ε β) = .ok value → wanted value := by
  intro value hsame
  cases hsame

section Walks

variable (test : α → α → ExceptT ε (StateM σ) Bool)

theorem performs_admits (candidate : Placed α) (members : List (Placed α)) :
    Performs (admits (noting test) candidate members)
      (admits test candidate.1 (members.map Prod.fst)) id fun _ calls =>
        (calls.map Call.asked).IsPrefix (members.map ([·, candidate])) := by
  induction members with
  | nil => exact .of_value true id List.nil_prefix
  | cons member rest ih =>
      rw [List.map_cons, admits, admits]
      refine (Performs.of_call test member candidate).bind
        (fun answer calls hcalls => ?_) fun error calls hcalls => ?_
      · subst hcalls
        cases answer with
        | true =>
            exact ih.mono fun _ calls hcalls =>
              (List.prefix_cons_inj _).mpr hcalls
        | false => exact .of_value false id (by simp [Call.asked])
      · subst hcalls
        simp [Call.asked]

def Walk.bare {candidates : List (Placed α)}
    (walked : Walk (Placed α) candidates) : Walk α (candidates.map Prod.fst) :=
  ⟨(walked.val.1.map Prod.fst, walked.val.2.map Prod.fst),
    by simpa using walked.property⟩

theorem performs_walk (members candidates : List (Placed α))
    (h : (members ++ candidates).Nodup) :
    Performs (walk (noting test) members candidates)
      (walk test (members.map Prod.fst) (candidates.map Prod.fst)) Walk.bare
      fun outcome calls => Asks members candidates calls ∧
        ∀ walked, outcome = .ok walked →
          Divides members candidates walked.val calls := by
  induction candidates generalizing members with
  | nil =>
      refine .of_value (⟨(members, []), Nat.le_refl _⟩ : Walk (Placed α) [])
        Walk.bare ⟨?_, ?_⟩
      · exact ⟨List.forall_mem_nil _, List.forall_mem_nil _, List.nodup_nil⟩
      · rintro _ ⟨⟩
        exact ⟨.refl _, List.Subset.refl _, .slnil, List.forall_mem_nil _⟩
  | cons candidate rest ih =>
      show Performs _ (walk test (members.map Prod.fst)
        (candidate.1 :: rest.map Prod.fst)) _ _
      rw [walk, walk]
      refine (performs_admits test candidate members).bind
        (fun fits calls hcalls => ?_) fun error calls hcalls =>
          ⟨asks_of_admission (List.nodup_append'.mp h).1 hcalls,
            forall_of_error⟩
      cases fits with
      | true =>
          have hlist : members ++ [candidate] ++ rest =
              members ++ candidate :: rest := by simp
          have hrest := ih (members ++ [candidate]) (hlist ▸ h)
          rw [List.map_append, List.map_singleton] at hrest
          refine hrest.bind (fun walked more hmore => ?_)
            fun error more hmore =>
              ⟨.after_admission h hcalls hmore.1 (hlist ▸ List.Sublist.refl _),
                forall_of_error⟩
          obtain ⟨⟨all, waiting⟩, hle⟩ := walked
          refine .of_value (⟨(all, waiting), Nat.le_succ_of_le hle⟩ :
            Walk (Placed α) (candidate :: rest)) Walk.bare ?_
          rw [List.append_nil]
          refine ⟨.after_admission h hcalls hmore.1
            (hlist ▸ List.Sublist.refl _), ?_⟩
          rintro _ ⟨⟩
          exact .after_joining hcalls (hmore.2 _ rfl)
      | false =>
          have hskips :
              (members ++ rest).Sublist (members ++ candidate :: rest) :=
            (List.sublist_cons_self candidate rest).append_left members
          refine (ih members (hskips.nodup h)).bind
            (fun walked more hmore => ?_) fun error more hmore =>
              ⟨.after_admission h hcalls hmore.1 hskips, forall_of_error⟩
          obtain ⟨⟨all, waiting⟩, hle⟩ := walked
          refine .of_value
            (⟨(all, candidate :: waiting), Nat.succ_le_succ hle⟩ :
              Walk (Placed α) (candidate :: rest)) Walk.bare ?_
          rw [List.append_nil]
          refine ⟨.after_admission h hcalls hmore.1 hskips, ?_⟩
          rintro _ ⟨⟩
          exact .after_waiting hcalls (hmore.2 _ rfl)

/-- A call of a later round is about two that wait, so it is none of this
round. -/
theorem Asks.next_round {seed : Placed α}
    {rest members waiting : List (Placed α)} {calls more : List (Call α ε)}
    (h : (seed :: rest).Nodup) (hcalls : Asks [seed] rest calls)
    (hdivides : Divides [seed] rest (members, waiting) calls)
    (hmore : Asks [] waiting more) :
    Asks [] (seed :: rest) (calls ++ more) := by
  have hlater : Asks [] (seed :: rest) more :=
    hmore.mono (hdivides.waiting.cons seed) (hdivides.waiting.cons seed).subset
  have hround : Asks [] (seed :: rest) calls :=
    hcalls.mono (.refl _) (List.subset_cons_self seed rest)
  refine hround.append hlater fun call hcall other hother hsame => ?_
  have hmember : call.member = other.member := (List.cons.inj hsame).1
  have hwaits : other.member ∈ waiting :=
    (hmore.within other hother).subset List.mem_cons_self
  have hapart := (List.nodup_append'.mp (hdivides.split.nodup_iff.mpr h)).2.2
  exact hapart (hdivides.met call hcall) (hmember ▸ hwaits)

theorem performs_blocks :
    (candidates : List (Placed α)) → candidates.Nodup →
      Performs (blocks (noting test) candidates)
        (blocks test (candidates.map Prod.fst))
        (List.map (List.map Prod.fst)) fun _ calls => Asks [] candidates calls
  | [], _ => by
      rw [List.map_nil, blocks, blocks]
      exact .of_value [] (List.map (List.map Prod.fst))
        ⟨List.forall_mem_nil _, List.forall_mem_nil _, List.nodup_nil⟩
  | seed :: rest, h => by
      rw [List.map_cons, blocks, blocks]
      refine (performs_walk test [seed] rest h).bind
        (fun walked calls hcalls => ?_) fun error calls hcalls =>
          hcalls.1.mono (.refl _) (List.subset_cons_self seed rest)
      obtain ⟨⟨members, waiting⟩, hle⟩ := walked
      have hdivides := hcalls.2 _ rfl
      have hdistinct : waiting.Nodup := (hdivides.waiting.cons seed).nodup h
      refine (performs_blocks waiting hdistinct).bind
        (fun others more hmore => ?_) fun error more hmore =>
          .next_round h hcalls.1 hdivides hmore
      refine .of_value (members :: others) (List.map (List.map Prod.fst)) ?_
      rw [List.append_nil]
      exact .next_round h hcalls.1 hdivides hmore
termination_by candidates => candidates.length
decreasing_by exact Nat.lt_succ_of_le hle

theorem performs_cliques {candidates : List (Placed α)} (h : candidates.Nodup) :
    Performs (cliques (noting test) candidates)
      (cliques test (candidates.map Prod.fst)) (List.map (List.map Prod.fst))
      fun _ calls => Asks [] candidates calls := by
  refine (performs_blocks test candidates h).bind (fun all calls hcalls => ?_)
    fun error calls hcalls => hcalls
  have hlarge :
      (all.map (List.map Prod.fst)).filter (fun block => 1 < block.length) =
        (all.filter fun block => 1 < block.length).map (List.map Prod.fst) := by
    rw [List.filter_map]
    congr 2
    funext block
    simp
  rw [hlarge]
  refine .of_value (all.filter fun block => 1 < block.length)
    (List.map (List.map Prod.fst)) ?_
  rw [List.append_nil]
  exact hcalls

end Walks

section Positions

variable {candidates : List α} {calls : List (Call α ε)}

theorem Asks.placed (h : Asks [] candidates.zipIdx calls) {call : Call α ε}
    (hcall : call ∈ calls) :
    candidates[call.member.2]? = some call.member.1 ∧
      candidates[call.candidate.2]? = some call.candidate.1 ∧
      call.member.2 < call.candidate.2 := by
  have hwithin : [call.member, call.candidate].Sublist candidates.zipIdx :=
    h.within call hcall
  have hordered := (zipIdx_ordered candidates).sublist hwithin
  rw [List.pairwise_pair] at hordered
  refine ⟨?_, ?_, hordered⟩
  · exact List.mem_zipIdx_iff_getElem?.mp (hwithin.subset (by simp))
  · exact List.mem_zipIdx_iff_getElem?.mp (hwithin.subset (by simp))

theorem Asks.positions_nodup (h : Asks [] candidates.zipIdx calls) :
    (calls.map Call.positions).Nodup := by
  refine List.pairwise_map.mpr ((List.pairwise_map.mp h.once).imp_of_mem
    fun {call other} hcall hother hne hsame => hne ?_)
  obtain ⟨hmember, hcandidate, _⟩ := h.placed hcall
  obtain ⟨hmember', hcandidate', _⟩ := h.placed hother
  obtain ⟨hfirst, hsecond⟩ := Prod.mk.inj hsame
  rw [hfirst, hmember'] at hmember
  rw [hsecond, hcandidate'] at hcandidate
  rw [Call.asked, Call.asked, Prod.ext (Option.some.inj hmember).symm hfirst,
    Prod.ext (Option.some.inj hcandidate).symm hsecond]

theorem Asks.length_le (h : Asks [] candidates.zipIdx calls) :
    calls.length ≤ candidates.length * (candidates.length - 1) / 2 := by
  have hpairs : calls.map Call.asked ⊆ candidates.zipIdx.sublistsLen 2 := by
    intro asked hasked
    obtain ⟨call, hcall, rfl⟩ := List.mem_map.mp hasked
    exact List.mem_sublistsLen.mpr ⟨h.within call hcall, rfl⟩
  have hlength := (h.once.subperm hpairs).length_le
  rwa [List.length_map, List.length_sublistsLen, List.length_zipIdx,
    Nat.choose_two_right] at hlength

end Positions

/-- How a test was called for the partition of some candidates, given the
outcome. -/
structure Conducted (candidates : List α) (outcome : Except ε β)
    (calls : List (Call α ε)) : Prop where
  placed : ∀ call ∈ calls, candidates[call.member.2]? = some call.member.1 ∧
    candidates[call.candidate.2]? = some call.candidate.1 ∧
    call.member.2 < call.candidate.2
  once : (calls.map Call.positions).Nodup
  few : calls.length ≤ candidates.length * (candidates.length - 1) / 2
  stops : ∀ {earlier later call error}, calls = earlier ++ call :: later →
    call.answer = .error error → later = [] ∧ outcome = .error error
  answers : (∀ call ∈ calls, call.Answered) → ∃ value, outcome = .ok value

end Noting

/-- The calls of a partition of candidates by any test, which need not have the
same answer twice. -/
theorem cliques_calls {α σ ε : Type} (test : α → α → ExceptT ε (StateM σ) Bool)
    (candidates : List α) (state : σ) :
    ∃ outcome calls after,
      perform (Partition.cliques (noting test) candidates.zipIdx) (state, []) =
        (outcome, (after, calls)) ∧
      perform (Partition.cliques test candidates) state =
        (outcome.map (List.map (List.map Prod.fst)), after) ∧
      Conducted candidates outcome calls := by
  have hdistinct : candidates.zipIdx.Nodup :=
    (zipIdx_ordered candidates).imp fun {x y} hlt hsame => by
      rw [hsame] at hlt
      exact Nat.lt_irrefl _ hlt
  obtain ⟨outcome, calls, after, hnoted, hplain, hending, hasks⟩ :=
    performs_cliques test hdistinct state []
  rw [List.zipIdx_map_fst] at hplain
  refine ⟨outcome, calls, after, hnoted, hplain, ?_⟩
  refine ⟨fun call hcall => hasks.placed hcall, hasks.positions_nodup,
    hasks.length_le, ?_, hending.exists_value⟩
  rintro earlier later call error rfl hfails
  exact hending.stops hfails

end ShapeMerge.Partition
