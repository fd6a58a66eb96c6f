import ConcOs.Rust.Result
import Mathlib.Logic.Relation

namespace rust

open Result

/-- What every step preserves holds in every state that is reached. -/
theorem reaches_invariant {σ : Type*} {step : σ → σ → Prop} (inv : σ → Prop)
    (hstep : ∀ state next, inv state → step state next → inv next) {initial state : σ}
    (hrun : Relation.ReflTransGen step initial state) (hinv : inv initial) : inv state := by
  induction hrun with
  | refl => exact hinv
  | tail _ hlast ih => exact hstep _ _ ih hlast

/-- The labels of the steps from `initial` to a state, in order. -/
inductive Run {σ ℓ : Type} (step : σ → ℓ → σ → Prop) (initial : σ) : List ℓ → σ → Prop where
  | nil : Run step initial [] initial
  | snoc {trace : List ℓ} {label : ℓ} {state next : σ} (hrun : Run step initial trace state)
      (hstep : step state label next) : Run step initial (trace ++ [label]) next

theorem Run.append {σ ℓ : Type} {step : σ → ℓ → σ → Prop} {initial middle state : σ} {trace rest : List ℓ}
    (hrun : Run step initial trace middle) (hrest : Run step middle rest state) :
    Run step initial (trace ++ rest) state := by
  induction hrest with
  | nil => rwa [List.append_nil]
  | snoc _ hlast ih =>
    rw [← List.append_assoc]
    exact ih.snoc hlast

/-- What every step preserves holds of every run. -/
theorem Run.invariant {σ ℓ : Type} {step : σ → ℓ → σ → Prop} {initial : σ} (inv : List ℓ → σ → Prop)
    (hinitial : inv [] initial)
    (hstep : ∀ trace label state next, inv trace state → step state label next → inv (trace ++ [label]) next)
    {trace : List ℓ} {state : σ} (hrun : Run step initial trace state) : inv trace state := by
  induction hrun with
  | nil => exact hinitial
  | snoc _ hlast ih => exact hstep _ _ _ _ ih hlast

/-- If what each step costs and leaves is covered by what was there and what the
step brings in, then so is what a whole run costs. -/
theorem Run.amortized {σ ℓ : Type} {step : σ → ℓ → σ → Prop} {initial : σ} (inv : σ → Prop)
    (cost income : ℓ → Nat) (load : σ → Nat) (hinitial : inv initial)
    (hstep : ∀ state label next, inv state → step state label next →
      inv next ∧ cost label + load next ≤ load state + income label)
    {trace : List ℓ} {state : σ} (hrun : Run step initial trace state) :
    inv state ∧ (trace.map cost).sum + load state ≤ load initial + (trace.map income).sum := by
  induction hrun with
  | nil => exact ⟨hinitial, by simp⟩
  | snoc _ hlast ih =>
    obtain ⟨hinv, hload⟩ := ih
    obtain ⟨hnext, hpaid⟩ := hstep _ _ _ hinv hlast
    refine ⟨hnext, ?_⟩
    simp only [List.map_append, List.sum_append, List.map_cons, List.map_nil, List.sum_singleton]
    omega

section execute

variable {σ ε ℓ : Type}

/-- Carries out a sequence of operations, each of which may panic, and records
a label for each. -/
def execute (perform : σ → ε → Result (ℓ × σ)) : σ → List ε → Result (List ℓ × σ)
  | state, [] => ok ([], state)
  | state, event :: events => do
    let (label, next) ← perform state event
    let (labels, final) ← execute perform next events
    ok (label :: labels, final)

/-- Operations that never panic can be carried out in any number. -/
theorem execute_returns {perform : σ → ε → Result (ℓ × σ)} {events : List ε}
    (hperform : ∀ state, ∀ event ∈ events, ∃ label next, perform state event = ok (label, next)) (state : σ) :
    ∃ labels final, execute perform state events = ok (labels, final) := by
  induction events generalizing state with
  | nil => exact ⟨[], state, rfl⟩
  | cons event events ih =>
    obtain ⟨label, next, hnext⟩ := hperform state event (by simp)
    obtain ⟨labels, final, hfinal⟩ := ih (fun state other hother => hperform state other (by simp [hother])) next
    exact ⟨label :: labels, final, by simp only [execute, hnext, hfinal, bind_tc_ok]⟩

/-- A property of the history and the state that every operation preserves
holds after any sequence of them. -/
theorem execute_invariant {perform : σ → ε → Result (ℓ × σ)} (inv : List ℓ → σ → Prop)
    (hstep : ∀ past state event label next, inv past state →
      perform state event = ok (label, next) → inv (past ++ [label]) next)
    {events : List ε} {past labels : List ℓ} {state final : σ} (hinv : inv past state)
    (hrun : execute perform state events = ok (labels, final)) : inv (past ++ labels) final := by
  induction events generalizing past state labels with
  | nil =>
    simp only [execute, ok.injEq, Prod.mk.injEq] at hrun
    obtain ⟨rfl, rfl⟩ := hrun
    simpa using hinv
  | cons event events ih =>
    obtain ⟨⟨label, next⟩, hnext, htail⟩ := bind_eq_ok_iff.mp hrun
    obtain ⟨⟨rest, last⟩, hrest, hok⟩ := bind_eq_ok_iff.mp htail
    simp only [ok.injEq, Prod.mk.injEq] at hok
    obtain ⟨rfl, rfl⟩ := hok
    have hkeep := ih (hstep past state event label next hinv hnext) hrest
    rwa [List.append_assoc] at hkeep

/-- Where every label names its event, the labels of a run name all events. -/
theorem execute_recorded {perform : σ → ε → Result (ℓ × σ)} {recorded : ℓ → ε}
    (hstep : ∀ state event label next, perform state event = ok (label, next) → recorded label = event)
    {events : List ε} {labels : List ℓ} {state final : σ}
    (hrun : execute perform state events = ok (labels, final)) : labels.map recorded = events := by
  induction events generalizing state labels with
  | nil =>
    simp only [execute, ok.injEq, Prod.mk.injEq] at hrun
    rw [← hrun.1, List.map_nil]
  | cons event events ih =>
    obtain ⟨⟨label, next⟩, hnext, htail⟩ := bind_eq_ok_iff.mp hrun
    obtain ⟨⟨rest, last⟩, hrest, hok⟩ := bind_eq_ok_iff.mp htail
    simp only [ok.injEq, Prod.mk.injEq] at hok
    obtain ⟨rfl, rfl⟩ := hok
    rw [List.map_cons, hstep state event label next hnext, ih hrest]

/-- Operations that return where an invariant of the requests, the history and
the state holds, and preserve it, can be carried out in any number. -/
theorem execute_total {perform : σ → ε → Result (ℓ × σ)} (inv : List ε → List ℓ → σ → Prop)
    (hstep : ∀ done past state event, inv done past state →
      ∃ label next, perform state event = ok (label, next) ∧ inv (done ++ [event]) (past ++ [label]) next)
    (events : List ε) {state : σ} (hinv : inv [] [] state) :
    ∃ labels final, execute perform state events = ok (labels, final) ∧ inv events labels final := by
  suffices hgeneral : ∀ done past state, inv done past state → ∃ labels final,
      execute perform state events = ok (labels, final) ∧ inv (done ++ events) (past ++ labels) final by
    simpa using hgeneral [] [] state hinv
  induction events with
  | nil => exact fun done past state hinv => ⟨[], state, rfl, by simpa using hinv⟩
  | cons event events ih =>
    intro done past state hinv
    obtain ⟨label, next, hnext, hkeep⟩ := hstep done past state event hinv
    obtain ⟨labels, final, hrest, hfinal⟩ := ih _ _ next hkeep
    refine ⟨label :: labels, final, by simp only [execute, hnext, hrest, bind_tc_ok], ?_⟩
    simpa using hfinal

end execute

/-- A loop whose body returns, and does to the state what `put` does to an abstract
one, returns likewise. -/
theorem foldlM_simulates {σ π α : Type} {body : σ → α → Result σ} {put : π → α → π} (rel : π → σ → Prop)
    (hbody : ∀ abstract state x, rel abstract state → ∃ next, body state x = ok next ∧ rel (put abstract x) next)
    (xs : List α) {abstract : π} {state : σ} (h : rel abstract state) :
    ∃ final, xs.foldlM body state = ok final ∧ rel (xs.foldl put abstract) final := by
  induction xs generalizing abstract state with
  | nil => exact ⟨state, rfl, h⟩
  | cons x xs ih =>
    obtain ⟨next, hnext, hrel⟩ := hbody abstract state x h
    obtain ⟨final, hfinal, hend⟩ := ih hrel
    refine ⟨final, ?_, hend⟩
    rw [List.foldlM_cons, hnext]
    exact hfinal

section since

variable {α : Type}

theorem filterMap_snoc {β : Type} (f : α → Option β) (past : List α) (last : α) :
    (past ++ [last]).filterMap f = past.filterMap f ++ (f last).toList := by
  rw [List.filterMap_append]
  cases hlast : f last <;> simp [hlast]

/-- A split of an extended list is at its last element, or a split of the list
before it. -/
theorem split_snoc {past before after : List α} {last x : α} (h : past ++ [last] = before ++ x :: after) :
    (before = past ∧ x = last ∧ after = []) ∨
      ∃ since, after = since ++ [last] ∧ past = before ++ x :: since := by
  rcases List.eq_nil_or_concat after with rfl | ⟨since, y, rfl⟩
  · obtain ⟨hpast, hlast⟩ := List.append_inj' h rfl
    exact Or.inl ⟨hpast.symm, (List.singleton_inj.mp hlast).symm, rfl⟩
  · have hcut : past ++ [last] = (before ++ x :: since) ++ [y] := by simpa using h
    obtain ⟨hpast, hlast⟩ := List.append_inj' hcut rfl
    obtain rfl := List.singleton_inj.mp hlast
    exact Or.inr ⟨since, by simp, hpast⟩

/-- `mark` is the last element of `past` that satisfies `p`, and `after` is
what follows it. -/
structure Since (p : α → Prop) (past : List α) (mark : α) (after : List α) : Prop where
  split : ∃ before, past = before ++ mark :: after
  marked : p mark
  quiet : ∀ x ∈ after, ¬ p x

theorem Since.start {p : α → Prop} (past : List α) {mark : α} (h : p mark) :
    Since p (past ++ [mark]) mark [] :=
  ⟨⟨past, rfl⟩, h, by simp⟩

theorem Since.snoc {p : α → Prop} {past after : List α} {mark last : α} (h : Since p past mark after)
    (hlast : ¬ p last) : Since p (past ++ [last]) mark (after ++ [last]) := by
  obtain ⟨⟨before, hsplit⟩, hmarked, hquiet⟩ := h
  refine ⟨⟨before, by rw [hsplit]; simp⟩, hmarked, fun x hx => ?_⟩
  rcases List.mem_append.mp hx with hmem | hmem
  · exact hquiet x hmem
  · rwa [List.mem_singleton.mp hmem]

/-- The last mark of an extended list is its last element, or that of the list
before it. -/
theorem Since.snoc_cases {p : α → Prop} {past after : List α} {mark last : α}
    (h : Since p (past ++ [last]) mark after) :
    (p last ∧ mark = last ∧ after = []) ∨
      ∃ since, ¬ p last ∧ after = since ++ [last] ∧ Since p past mark since := by
  obtain ⟨⟨before, hsplit⟩, hmarked, hquiet⟩ := h
  rcases split_snoc hsplit with ⟨_, rfl, rfl⟩ | ⟨since, rfl, hpast⟩
  · exact Or.inl ⟨hmarked, rfl, rfl⟩
  · exact Or.inr ⟨since, hquiet last (by simp), rfl, ⟨before, hpast⟩, hmarked,
      fun y hy => hquiet y (by simp [hy])⟩

theorem Since.unique {p : α → Prop} {past after after' : List α} {mark mark' : α}
    (h : Since p past mark after) (h' : Since p past mark' after') : mark = mark' ∧ after = after' := by
  induction past using List.reverseRecOn generalizing after after' with
  | nil =>
    obtain ⟨before, hsplit⟩ := h.split
    simp at hsplit
  | append_singleton past last ih =>
    rcases h.snoc_cases with ⟨hp, rfl, rfl⟩ | ⟨since, hp, rfl, hsince⟩ <;>
      rcases h'.snoc_cases with ⟨hp', rfl, rfl⟩ | ⟨since', hp', rfl, hsince'⟩
    · exact ⟨rfl, rfl⟩
    · exact absurd hp hp'
    · exact absurd hp' hp
    · obtain ⟨rfl, rfl⟩ := ih hsince hsince'
      exact ⟨rfl, rfl⟩

/-- A property of every position of a list extends by one position. -/
theorem forall_split_snoc {P : List α → α → Prop} {past : List α} {last : α}
    (hpast : ∀ before x after, past = before ++ x :: after → P before x) (hlast : P past last) :
    ∀ before x after, past ++ [last] = before ++ x :: after → P before x := by
  intro before x after hsplit
  rcases split_snoc hsplit with ⟨rfl, rfl, _⟩ | ⟨since, _, hsince⟩
  · exact hlast
  · exact hpast before x since hsince

end since

end rust
