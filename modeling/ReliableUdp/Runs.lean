import Mathlib

/-! Runs of an event-driven machine whose environment obeys a guard: each event is admitted
by a condition on the state before it. -/
namespace ReliableUdp.Runs

variable {σ ε : Type*}

/-- The states reached from `start` by admitted events. -/
inductive Reachable (step : σ → ε → σ) (guard : σ → ε → Prop) (start : σ) : σ → Prop
  | start : Reachable step guard start start
  | step {s : σ} (prior : Reachable step guard start s) (e : ε) (admitted : guard s e) :
      Reachable step guard start (step s e)

/-- A property of the start that every admitted event keeps holds in every reachable state. -/
theorem Reachable.invariant {step : σ → ε → σ} {guard : σ → ε → Prop} {start s : σ}
    (h : Reachable step guard start s) {P : σ → Prop} (hstart : P start)
    (hstep : ∀ s e, P s → guard s e → P (step s e)) : P s := by
  induction h with
  | start => exact hstart
  | step _ e admitted ih => exact hstep _ e ih admitted

lemma Reachable.mono {step : σ → ε → σ} {guard guard' : σ → ε → Prop} {start s : σ}
    (h : Reachable step guard start s) (hg : ∀ s e, guard s e → guard' s e) :
    Reachable step guard' start s := by
  induction h with
  | start => exact .start
  | step _ e admitted ih => exact .step ih e (hg _ e admitted)

/-- Every event of the list is admitted in the state it finds. -/
def Admitted (step : σ → ε → σ) (guard : σ → ε → Prop) : σ → List ε → Prop
  | _, [] => True
  | s, e :: es => guard s e ∧ Admitted step guard (step s e) es

instance (step : σ → ε → σ) (guard : σ → ε → Prop) [∀ s e, Decidable (guard s e)] (s : σ)
    (es : List ε) : Decidable (Admitted step guard s es) :=
  match es with
  | [] => .isTrue trivial
  | e :: es =>
    have : Decidable (Admitted step guard (step s e) es) :=
      instDecidableAdmitted step guard (step s e) es
    inferInstanceAs (Decidable (guard s e ∧ Admitted step guard (step s e) es))

lemma admitted_append {step : σ → ε → σ} {guard : σ → ε → Prop} (s : σ) (es later : List ε) :
    Admitted step guard s (es ++ later) ↔
      Admitted step guard s es ∧ Admitted step guard (es.foldl step s) later := by
  induction es generalizing s with
  | nil => simp [Admitted]
  | cons e es ih => simp [Admitted, ih, and_assoc]

lemma admitted_concat {step : σ → ε → σ} {guard : σ → ε → Prop} (s : σ) (es : List ε) (e : ε) :
    Admitted step guard s (es ++ [e]) ↔
      Admitted step guard s es ∧ guard (es.foldl step s) e := by
  rw [admitted_append]
  simp only [Admitted, and_true]

lemma admitted_of_forall_mem {step : σ → ε → σ} {guard : σ → ε → Prop} (s : σ) {es : List ε}
    (h : ∀ e ∈ es, ∀ s, guard s e) : Admitted step guard s es := by
  induction es generalizing s with
  | nil => trivial
  | cons e es ih =>
    exact ⟨h e List.mem_cons_self s, ih (step s e) fun e' he' => h e' (List.mem_cons_of_mem e he')⟩

/-- A list of admitted events leads to a reachable state. -/
theorem reachable_foldl {step : σ → ε → σ} {guard : σ → ε → Prop} {start s : σ}
    (h : Reachable step guard start s) (es : List ε) (ha : Admitted step guard s es) :
    Reachable step guard start (es.foldl step s) := by
  induction es generalizing s with
  | nil => exact h
  | cons e es ih => exact ih (.step h e ha.1) ha.2

/-- Every state a run passes through is as specified exactly when each of its events meets a
condition, where the condition keeps an invariant that implies the specification and any other
event breaks the specification at once. -/
theorem forall_prefix_iff_admitted {step : σ → ε → σ} {guard condition : σ → ε → Prop}
    {P invariant : σ → Prop} {start : σ} (hstart : invariant start)
    (hspec : ∀ s, invariant s → P s)
    (hkeep : ∀ s e, invariant s → guard s e → condition s e → invariant (step s e))
    (hbreak : ∀ s e, invariant s → guard s e → ¬ condition s e → ¬ P (step s e))
    (events : List ε) (h : Admitted step guard start events) :
    (∀ before, before <+: events → P (before.foldl step start)) ↔
      Admitted step condition start events := by
  induction events generalizing start with
  | nil =>
    refine ⟨fun _ => trivial, fun _ before hb => ?_⟩
    rw [List.prefix_nil.mp hb]
    exact hspec start hstart
  | cons e events ih =>
    by_cases he : condition start e
    · have hrest := ih (hkeep start e hstart h.1 he) h.2
      constructor
      · intro hall
        refine ⟨he, hrest.mp fun before hb => ?_⟩
        exact hall (e :: before) (List.cons_prefix_cons.mpr ⟨rfl, hb⟩)
      · rintro ⟨_, hadmitted⟩ before hb
        cases before with
        | nil => exact hspec start hstart
        | cons e' before =>
          obtain ⟨rfl, hrun⟩ := List.cons_prefix_cons.mp hb
          exact hrest.mpr hadmitted before hrun
    · constructor
      · intro hall
        have hone := hall [e] (List.cons_prefix_cons.mpr ⟨rfl, List.nil_prefix⟩)
        exact absurd hone (hbreak start e hstart h.1 he)
      · rintro ⟨hc, _⟩
        exact absurd hc he

/-- The same for an environment without a guard. -/
theorem forall_prefix_iff {step : σ → ε → σ} {condition : σ → ε → Prop} {P invariant : σ → Prop}
    {start : σ} (hstart : invariant start) (hspec : ∀ s, invariant s → P s)
    (hkeep : ∀ s e, invariant s → condition s e → invariant (step s e))
    (hbreak : ∀ s e, invariant s → ¬ condition s e → ¬ P (step s e)) (events : List ε) :
    (∀ before, before <+: events → P (before.foldl step start)) ↔
      Admitted step condition start events := by
  have hfree : Admitted step (fun _ _ => True) start events :=
    admitted_of_forall_mem start fun _ _ _ => trivial
  exact forall_prefix_iff_admitted hstart hspec (fun s e hs _ => hkeep s e hs)
    (fun s e hs _ => hbreak s e hs) events hfree

/-- The events of a run without those that are ignored in the state they find. -/
def sieve (step : σ → ε → σ) (ignored : σ → ε → Prop) [∀ s e, Decidable (ignored s e)] :
    σ → List ε → List ε
  | _, [] => []
  | s, e :: es =>
    if ignored s e then sieve step ignored (step s e) es else e :: sieve step ignored (step s e) es

/-- A run without its ignored events ends in a related state, when ignored events keep the relation
on the left and every event keeps it on both sides. -/
theorem related_sieve {step : σ → ε → σ} {ignored : σ → ε → Prop}
    [∀ s e, Decidable (ignored s e)] {R : σ → σ → Prop}
    (hskip : ∀ s t e, R s t → ignored s e → R (step s e) t)
    (hstep : ∀ s t e, R s t → R (step s e) (step t e)) {s t : σ} (h : R s t) (es : List ε) :
    R (es.foldl step s) ((sieve step ignored s es).foldl step t) := by
  induction es generalizing s t with
  | nil => exact h
  | cons e es ih =>
    unfold sieve
    split_ifs with he
    · exact ih (hskip s t e h he)
    · exact ih (hstep s t e h)

end ReliableUdp.Runs
