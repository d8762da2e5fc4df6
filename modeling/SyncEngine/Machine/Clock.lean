import SyncEngine.Machine.Runs

/-!
# Runs with a clock

Inputs that carry the time at which they are taken.  `InOrder` says that the clock is never put
back, and `invariant_at` is induction over such a run for a property that depends on the time:
letting time pass keeps it, and so does every admitted step.
-/

namespace Machine

variable {S I T : Type} [Preorder T] {step : S → T × I → S} {guard : S → T × I → Prop}

/-- The clock is never put back. -/
def InOrder (inputs : List (T × I)) : Prop := inputs.Pairwise fun a b => a.1 ≤ b.1

instance [DecidableLE T] (inputs : List (T × I)) : Decidable (InOrder inputs) := by
  unfold InOrder
  infer_instance

lemma inOrder_append {first later : List (T × I)} :
    InOrder (first ++ later) ↔
      InOrder first ∧ InOrder later ∧ ∀ a ∈ first, ∀ b ∈ later, a.1 ≤ b.1 :=
  List.pairwise_append

lemma InOrder.filter {inputs : List (T × I)} (h : InOrder inputs) (p : T × I → Bool) :
    InOrder (inputs.filter p) :=
  List.Pairwise.filter p h

/-- What the passing of time and every admitted step keep, every guarded run keeps. -/
lemma invariant_at {Inv : T → S → Prop} (hlater : ∀ t t' s, t ≤ t' → Inv t s → Inv t' s)
    (hstep : ∀ s i, Inv i.1 s → guard s i → Inv i.1 (step s i)) {s : S} {inputs : List (T × I)}
    {t now : T} (hs : Inv t s) (horder : InOrder inputs) (hfrom : ∀ i ∈ inputs, t ≤ i.1)
    (hto : ∀ i ∈ inputs, i.1 ≤ now) (hnow : t ≤ now) (h : Along step guard s inputs) :
    Inv now (run step s inputs) := by
  induction inputs generalizing s t with
  | nil => exact hlater _ _ _ hnow hs
  | cons i inputs ih =>
    have hhead := List.pairwise_cons.1 horder
    have hi : Inv i.1 s := hlater _ _ _ (hfrom i List.mem_cons_self) hs
    apply ih (hstep s i hi h.1) hhead.2 hhead.1
    · exact fun j hj => hto j (List.mem_cons_of_mem _ hj)
    · exact hto i List.mem_cons_self
    · exact h.2

end Machine
