import Mathlib

/-!
# Runs of a state machine

A machine takes a state and an input to the next state; `run` folds a list of inputs.  `Along g`
says of a run that every step is taken where the guard `g` admits it, and the rules below turn what
one step does into what a run does.  `invariant` is induction over a guarded run, and `always` and
`invariant_of_forall` are the same without a guard and with one on the inputs alone.  `iff_along` is
for a property of states that records the past: where a step keeps it exactly when the guard admits
the step, a run keeps it exactly when it is guarded.  `forall_prefix_iff_along` is for a property
that a later step may restore: it holds after every step exactly when the run is guarded.  Both have
a form that assumes something of the inputs (`iff_along_of`, `forall_prefix_iff_along_of`).

A machine that takes no inputs is iterated: `bounded_of_potential` and `unbounded_of_progress` say
what a count does in the long run.  A machine that answers each input is compared with another one
by their answers: `answers_eq_of_abstracts` is for states that stand for states of the other.
-/

namespace Machine

variable {S I : Type} (step : S → I → S)

/-- The state after a list of inputs. -/
def run (s : S) (inputs : List I) : S := inputs.foldl step s

@[simp] lemma run_nil (s : S) : run step s [] = s := rfl

@[simp] lemma run_cons (s : S) (i : I) (inputs : List I) :
    run step s (i :: inputs) = run step (step s i) inputs := rfl

lemma run_append (s : S) (first later : List I) :
    run step s (first ++ later) = run step (run step s first) later := List.foldl_append

/-- Every step of the run is admitted by the guard. -/
def Along (guard : S → I → Prop) : S → List I → Prop
  | _, [] => True
  | s, i :: inputs => guard s i ∧ Along guard (step s i) inputs

variable {step} {guard : S → I → Prop}

lemma along_append {s : S} {first later : List I} :
    Along step guard s (first ++ later) ↔
      Along step guard s first ∧ Along step guard (run step s first) later := by
  induction first generalizing s with
  | nil => simp [Along]
  | cons i first ih => simp only [List.cons_append, Along, ih, run_cons, and_assoc]

/-- A run is guarded when each of its steps is, taken in the state that it finds. -/
lemma along_iff_forall {s : S} {inputs : List I} :
    Along step guard s inputs ↔
      ∀ before i, before ++ [i] <+: inputs → guard (run step s before) i := by
  induction inputs generalizing s with
  | nil => simp [Along]
  | cons i inputs ih =>
    rw [Along, ih]
    constructor
    · rintro ⟨hi, hrest⟩ before j hbefore
      cases before with
      | nil =>
        obtain ⟨rfl, -⟩ := List.cons_prefix_cons.1 hbefore
        exact hi
      | cons k before =>
        obtain ⟨rfl, hlater⟩ := List.cons_prefix_cons.1 hbefore
        exact hrest before j hlater
    · intro h
      refine ⟨h [] i (by simp), fun before j hbefore => ?_⟩
      exact h (i :: before) j (List.cons_prefix_cons.2 ⟨rfl, hbefore⟩)

lemma Along.mono {guard' : S → I → Prop} (himp : ∀ s i, guard s i → guard' s i) {s : S}
    {inputs : List I} (h : Along step guard s inputs) : Along step guard' s inputs := by
  induction inputs generalizing s with
  | nil => trivial
  | cons i inputs ih => exact ⟨himp s i h.1, ih h.2⟩

/-- A guard may also ask what is known of every input. -/
lemma Along.and_of_forall {p : I → Prop} {s : S} {inputs : List I}
    (h : Along step guard s inputs) (hp : ∀ i ∈ inputs, p i) :
    Along step (fun s i => p i ∧ guard s i) s inputs := by
  induction inputs generalizing s with
  | nil => trivial
  | cons i inputs ih =>
    exact ⟨⟨hp i List.mem_cons_self, h.1⟩,
      ih h.2 fun j hj => hp j (List.mem_cons_of_mem i hj)⟩

/-- What the guard asks of an input holds of every input. -/
lemma Along.forall_mem {p : I → Prop} (himp : ∀ s i, guard s i → p i) {s : S} {inputs : List I}
    (h : Along step guard s inputs) : ∀ i ∈ inputs, p i := by
  induction inputs generalizing s with
  | nil => exact nofun
  | cons i inputs ih => exact List.forall_mem_cons.2 ⟨himp s i h.1, ih h.2⟩

/-- What every admitted step keeps, every guarded run keeps. -/
lemma invariant {Inv : S → Prop} (hstep : ∀ s i, Inv s → guard s i → Inv (step s i)) {s : S}
    {inputs : List I} (hs : Inv s) (h : Along step guard s inputs) : Inv (run step s inputs) := by
  induction inputs generalizing s with
  | nil => exact hs
  | cons i inputs ih => exact ih (hstep s i hs h.1) h.2

/-- What every step with an input of a kind keeps, every run of such inputs keeps. -/
lemma invariant_of_forall {Inv : S → Prop} {p : I → Prop}
    (hstep : ∀ s i, Inv s → p i → Inv (step s i)) {s : S} {inputs : List I} (hs : Inv s)
    (h : ∀ i ∈ inputs, p i) : Inv (run step s inputs) :=
  List.foldlRecOn inputs step hs fun s hs i hi => hstep s i hs (h i hi)

/-- What every step keeps, every run keeps. -/
lemma always {Inv : S → Prop} (hstep : ∀ s i, Inv s → Inv (step s i)) {s : S} (inputs : List I)
    (hs : Inv s) : Inv (run step s inputs) := by
  induction inputs generalizing s with
  | nil => exact hs
  | cons i inputs ih => exact ih (hstep s i hs)

/-- What a step keeps exactly when it is admitted, a run keeps exactly when it is guarded; both
under an assumption on the inputs. -/
lemma iff_along_of {Inv Good : S → Prop} {assumed : S → I → Prop}
    (hinv : ∀ s i, Inv s → assumed s i → Inv (step s i))
    (hstep : ∀ s i, Inv s → assumed s i → (Good (step s i) ↔ Good s ∧ guard s i)) {s : S}
    {inputs : List I} (hs : Inv s) (h : Along step assumed s inputs) :
    Good (run step s inputs) ↔ Good s ∧ Along step guard s inputs := by
  induction inputs generalizing s with
  | nil => simp [Along]
  | cons i inputs ih =>
    rw [run_cons, ih (hinv s i hs h.1) h.2, hstep s i hs h.1, Along]
    tauto

lemma along_true (s : S) (inputs : List I) : Along step (fun _ _ => True) s inputs := by
  induction inputs generalizing s with
  | nil => trivial
  | cons i inputs ih => exact ⟨trivial, ih _⟩

/-- What a step keeps exactly when it is admitted, a run keeps exactly when it is guarded; the
equivalence of a step may use what holds in every state. -/
lemma iff_along {Inv Good : S → Prop} (hinv : ∀ s i, Inv s → Inv (step s i))
    (hstep : ∀ s i, Inv s → (Good (step s i) ↔ Good s ∧ guard s i)) {s : S} (inputs : List I)
    (hs : Inv s) : Good (run step s inputs) ↔ Good s ∧ Along step guard s inputs :=
  iff_along_of (fun s i h _ => hinv s i h) (fun s i h _ => hstep s i h) hs (along_true s inputs)

/-- Where a step out of a good state is good exactly when it is admitted, a run stays good exactly
when it is guarded; both under an assumption on the inputs. -/
lemma forall_prefix_iff_along_of {Inv Good : S → Prop} {assumed : S → I → Prop}
    (hinv : ∀ s i, Inv s → assumed s i → Inv (step s i))
    (hstep : ∀ s i, Inv s → assumed s i → Good s → (Good (step s i) ↔ guard s i)) {s : S}
    {inputs : List I} (hs : Inv s) (hgood : Good s) (hassumed : Along step assumed s inputs) :
    (∀ before, before <+: inputs → Good (run step s before)) ↔ Along step guard s inputs := by
  induction inputs generalizing s with
  | nil =>
    refine iff_of_true (fun before hbefore => ?_) trivial
    rw [List.prefix_nil.1 hbefore]
    exact hgood
  | cons i inputs ih =>
    obtain ⟨hi, hrest⟩ := hassumed
    constructor
    · intro h
      have hnext : Good (step s i) := h [i] (List.prefix_append [i] inputs)
      refine ⟨(hstep s i hs hi hgood).1 hnext,
        (ih (hinv s i hs hi) hnext hrest).1 fun before hbefore => ?_⟩
      exact h (i :: before) ((List.prefix_cons_inj i).2 hbefore)
    · rintro ⟨hguard, hlater⟩ before hbefore
      have hnext : Good (step s i) := (hstep s i hs hi hgood).2 hguard
      obtain rfl | ⟨before, rfl, hbefore⟩ := List.prefix_cons_iff.1 hbefore
      · exact hgood
      · exact (ih (hinv s i hs hi) hnext hrest).2 hlater before
          ((List.prefix_cons_inj i).1 hbefore)

/-- Where a step out of a good state is good exactly when it is admitted, a run stays good exactly
when it is guarded. -/
lemma forall_prefix_iff_along {Inv Good : S → Prop} (hinv : ∀ s i, Inv s → Inv (step s i))
    (hstep : ∀ s i, Inv s → Good s → (Good (step s i) ↔ guard s i)) {s : S} (hs : Inv s)
    (hgood : Good s) (inputs : List I) :
    (∀ before, before <+: inputs → Good (run step s before)) ↔ Along step guard s inputs :=
  forall_prefix_iff_along_of (fun s i h _ => hinv s i h) (fun s i h _ => hstep s i h) hs hgood
    (along_true s inputs)

/-! ## A machine without inputs -/

section Iterate

variable {next : S → S} {Good : S → Prop} {count work : S → ℕ}

lemma iterate_good (h : ∀ s, Good s → Good (next s)) {s : S} (hs : Good s) (n : ℕ) :
    Good (next^[n] s) :=
  Function.Iterate.rec Good hs h n

/-- A count that is kept below what never grows is bounded. -/
lemma bounded_of_potential {potential : S → ℕ} (hgood : ∀ s, Good s → Good (next s))
    (h : ∀ s, Good s → potential (next s) ≤ potential s) (hcount : ∀ s, count s ≤ potential s)
    {s : S} (hs : Good s) (n : ℕ) : count (next^[n] s) ≤ potential s := by
  have hle : potential (next^[n] s) ≤ potential s := by
    induction n with
    | zero => exact le_rfl
    | succ n ih =>
      rw [Function.iterate_succ_apply']
      exact (h _ (iterate_good hgood hs n)).trans ih
  exact (hcount _).trans hle

/-- A count that every step increases, or leaves while it uses up work, is unbounded. -/
lemma unbounded_of_progress (hgood : ∀ s, Good s → Good (next s))
    (h : ∀ s, Good s → count s < count (next s) ∨
      count (next s) = count s ∧ work (next s) < work s) {s : S} (hs : Good s) (N : ℕ) :
    ∃ n, N ≤ count (next^[n] s) := by
  have hlater : ∀ w, ∀ t, Good t → work t = w → ∃ n, count t < count (next^[n] t) := by
    intro w
    induction w using Nat.strong_induction_on with
    | _ w ih =>
      intro t ht hw
      obtain hlt | ⟨heq, hless⟩ := h t ht
      · exact ⟨1, hlt⟩
      · obtain ⟨n, hn⟩ := ih (work (next t)) (hw ▸ hless) (next t) (hgood t ht) rfl
        rw [heq] at hn
        exact ⟨n + 1, hn⟩
  induction N with
  | zero => exact ⟨0, Nat.zero_le _⟩
  | succ N ih =>
    obtain ⟨n, hn⟩ := ih
    obtain ⟨m, hm⟩ := hlater _ (next^[n] s) (iterate_good hgood hs n) rfl
    refine ⟨m + n, ?_⟩
    rw [Function.iterate_add_apply]
    omega

end Iterate

/-! ## A machine that answers -/

section Answers

variable {T O : Type}

/-- The answers to a list of inputs, one after another. -/
def answers (respond : S → I → S × O) : S → List I → List O
  | _, [] => []
  | s, i :: inputs => (respond s i).2 :: answers respond (respond s i).1 inputs

/-- Where every step answers as a step of the abstract machine does, and leads to a state that
stands for the one that it leads to, all answers are the same. -/
lemma answers_eq_of_abstracts {respond : S → I → S × O} {respond' : T → I → T × O} {abs : S → T}
    (hstep : ∀ s i, respond' (abs s) i = (abs (respond s i).1, (respond s i).2)) (s : S)
    (inputs : List I) : answers respond s inputs = answers respond' (abs s) inputs := by
  induction inputs generalizing s with
  | nil => rfl
  | cons i inputs ih => rw [answers, answers, hstep, ih]

end Answers

end Machine
