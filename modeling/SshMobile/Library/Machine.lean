import Mathlib

/-!
# Machines and their runs

A machine takes one input at a time, moves to its next state and produces an output. A run is a
list of inputs; the interleavings of several callers are the lists that mix their inputs. What
one step preserves, every run preserves: the invariant rules are stated for runs whose steps
all meet a guard on the state before the step and its input.

## Main definitions

* `Machine σ ι ο`: machines with states `σ`, inputs `ι` and outputs `ο`
* `Machine.runFrom`, `Machine.run`: the state after a list of inputs
* `Machine.transcriptFrom`, `Machine.transcript`: the inputs of a run with their outputs
* `Machine.AlongFrom`, `Machine.Along`: every step of a run meets a guard
* `Trace`: the paths of a labelled step relation

## Main results

* `Machine.run_invariant`: a guarded invariant holds after every guarded run
* `Machine.transcript_invariant`: the same for an invariant that also reads the transcript
* `Trace.invariant`: what every guarded step preserves, every guarded path preserves
-/

namespace Library

universe u v w

/-- A machine: its first state, and one step from a state and an input. -/
structure Machine (σ : Type u) (ι : Type v) (ο : Type w) where
  start : σ
  step : σ → ι → σ × ο

namespace Machine

variable {σ : Type u} {ι : Type v} {ο : Type w} (M : Machine σ ι ο)

/-- The state reached from `s` after the inputs `xs`. -/
def runFrom (s : σ) (xs : List ι) : σ := xs.foldl (fun s x => (M.step s x).1) s

/-- The state after the inputs `xs`. -/
def run (xs : List ι) : σ := M.runFrom M.start xs

/-- The inputs `xs` with the outputs they produce from `s`. -/
def transcriptFrom (s : σ) : List ι → List (ι × ο)
  | [] => []
  | x :: xs => (x, (M.step s x).2) :: transcriptFrom (M.step s x).1 xs

/-- The inputs `xs` with the outputs they produce. -/
def transcript (xs : List ι) : List (ι × ο) := M.transcriptFrom M.start xs

/-- The states of the run of `xs` from `s`, the first and the last included. -/
def statesFrom (s : σ) : List ι → List σ
  | [] => [s]
  | x :: xs => s :: statesFrom (M.step s x).1 xs

/-- The states of the run of `xs`. -/
def states (xs : List ι) : List σ := M.statesFrom M.start xs

/-- Every step of the run of `xs` from `s` meets the guard `P`. -/
def AlongFrom (P : σ → ι → Prop) (s : σ) : List ι → Prop
  | [] => True
  | x :: xs => P s x ∧ AlongFrom P (M.step s x).1 xs

/-- Every step of the run of `xs` meets the guard `P`. -/
def Along (P : σ → ι → Prop) (xs : List ι) : Prop := M.AlongFrom P M.start xs

/-- A decidable guard is checked by running the machine. -/
instance decidableAlongFrom {P : σ → ι → Prop} [∀ s x, Decidable (P s x)] :
    ∀ (s : σ) (xs : List ι), Decidable (M.AlongFrom P s xs)
  | _, [] => inferInstanceAs (Decidable True)
  | s, x :: xs =>
    have : Decidable (M.AlongFrom P (M.step s x).1 xs) := decidableAlongFrom (M.step s x).1 xs
    inferInstanceAs (Decidable (P s x ∧ M.AlongFrom P (M.step s x).1 xs))

instance {P : σ → ι → Prop} [∀ s x, Decidable (P s x)] (xs : List ι) : Decidable (M.Along P xs) :=
  M.decidableAlongFrom M.start xs

variable (s : σ)

theorem mem_statesFrom_self (xs : List ι) : s ∈ M.statesFrom s xs := by
  cases xs with
  | nil => exact List.mem_singleton_self s
  | cons x xs => exact List.mem_cons_self

@[simp] theorem runFrom_nil : M.runFrom s [] = s := rfl

@[simp] theorem runFrom_cons (x : ι) (xs : List ι) :
    M.runFrom s (x :: xs) = M.runFrom (M.step s x).1 xs := rfl

theorem runFrom_append (xs ys : List ι) :
    M.runFrom s (xs ++ ys) = M.runFrom (M.runFrom s xs) ys := List.foldl_append

theorem runFrom_snoc (xs : List ι) (x : ι) :
    M.runFrom s (xs ++ [x]) = (M.step (M.runFrom s xs) x).1 := M.runFrom_append s xs [x]

theorem run_append (xs ys : List ι) : M.run (xs ++ ys) = M.runFrom (M.run xs) ys :=
  M.runFrom_append _ xs ys

theorem run_snoc (xs : List ι) (x : ι) : M.run (xs ++ [x]) = (M.step (M.run xs) x).1 :=
  M.runFrom_snoc _ xs x

theorem transcriptFrom_append (xs ys : List ι) :
    M.transcriptFrom s (xs ++ ys) =
      M.transcriptFrom s xs ++ M.transcriptFrom (M.runFrom s xs) ys := by
  induction xs generalizing s with
  | nil => rfl
  | cons x xs ih => simp only [List.cons_append, transcriptFrom, ih, runFrom_cons]

theorem transcriptFrom_snoc (xs : List ι) (x : ι) :
    M.transcriptFrom s (xs ++ [x]) =
      M.transcriptFrom s xs ++ [(x, (M.step (M.runFrom s xs) x).2)] :=
  M.transcriptFrom_append s xs [x]

variable {P : σ → ι → Prop} {I : σ → Prop} {xs : List ι} {Q : σ → ι → Prop}

theorem alongFrom_append (xs ys : List ι) :
    M.AlongFrom P s (xs ++ ys) ↔ M.AlongFrom P s xs ∧ M.AlongFrom P (M.runFrom s xs) ys := by
  induction xs generalizing s with
  | nil => simp [AlongFrom]
  | cons x xs ih => simp only [List.cons_append, AlongFrom, ih, runFrom_cons, and_assoc]

theorem alongFrom_snoc (xs : List ι) (x : ι) :
    M.AlongFrom P s (xs ++ [x]) ↔ M.AlongFrom P s xs ∧ P (M.runFrom s xs) x := by
  rw [alongFrom_append]
  simp [AlongFrom]

/-- A guard on the inputs alone. -/
theorem alongFrom_of_forall {P : ι → Prop} (h : ∀ x ∈ xs, P x) :
    M.AlongFrom (fun _ x => P x) s xs := by
  induction xs generalizing s with
  | nil => trivial
  | cons x xs ih =>
    exact ⟨h x List.mem_cons_self, ih _ fun y hy => h y (List.mem_cons_of_mem _ hy)⟩

section

variable {I : σ → List (ι × ο) → Prop}

/-- **The history rule**: what the first state has, and every guarded step carries from the
transcript so far to the extended one, holds after every guarded run. -/
theorem transcriptFrom_invariant {s : σ} (hs : I s [])
    (hstep : ∀ s h x, I s h → P s x → I (M.step s x).1 (h ++ [(x, (M.step s x).2)]))
    (hP : M.AlongFrom P s xs) : I (M.runFrom s xs) (M.transcriptFrom s xs) := by
  induction xs using List.reverseRecOn with
  | nil => exact hs
  | append_singleton xs x ih =>
    obtain ⟨hxs, hx⟩ := (M.alongFrom_snoc s xs x).mp hP
    rw [runFrom_snoc, transcriptFrom_snoc]
    exact hstep _ _ x (ih hxs) hx

theorem transcript_invariant (hs : I M.start [])
    (hstep : ∀ s h x, I s h → P s x → I (M.step s x).1 (h ++ [(x, (M.step s x).2)]))
    (hP : M.Along P xs) : I (M.run xs) (M.transcript xs) :=
  M.transcriptFrom_invariant hs hstep hP

/-- The history rule for every run. -/
theorem transcriptFrom_always {s : σ} (hs : I s [])
    (hstep : ∀ s h x, I s h → I (M.step s x).1 (h ++ [(x, (M.step s x).2)])) (xs : List ι) :
    I (M.runFrom s xs) (M.transcriptFrom s xs) :=
  M.transcriptFrom_invariant (P := fun _ _ => True) hs (fun s h x hI _ => hstep s h x hI)
    (M.alongFrom_of_forall s fun _ _ => trivial)

theorem transcript_always (hs : I M.start [])
    (hstep : ∀ s h x, I s h → I (M.step s x).1 (h ++ [(x, (M.step s x).2)])) (xs : List ι) :
    I (M.run xs) (M.transcript xs) :=
  M.transcriptFrom_always hs hstep xs

end

/-- **The invariant rule**: what the first state has, and every guarded step preserves, holds
after every guarded run. -/
theorem runFrom_invariant {s : σ} (hs : I s) (hstep : ∀ s x, I s → P s x → I (M.step s x).1)
    (hP : M.AlongFrom P s xs) : I (M.runFrom s xs) :=
  M.transcriptFrom_invariant (I := fun s _ => I s) hs (fun s _ x h hx => hstep s x h hx) hP

theorem run_invariant (hs : I M.start) (hstep : ∀ s x, I s → P s x → I (M.step s x).1)
    (hP : M.Along P xs) : I (M.run xs) :=
  M.runFrom_invariant hs hstep hP

/-- The invariant rule for every run. -/
theorem runFrom_always {s : σ} (hs : I s) (hstep : ∀ s x, I s → I (M.step s x).1) (xs : List ι) :
    I (M.runFrom s xs) :=
  M.transcriptFrom_always (I := fun s _ => I s) hs (fun s _ x h => hstep s x h) xs

theorem run_always (hs : I M.start) (hstep : ∀ s x, I s → I (M.step s x).1) (xs : List ι) :
    I (M.run xs) :=
  M.runFrom_always hs hstep xs

theorem alongFrom_mono (h : ∀ s x, P s x → Q s x) {s : σ} (hP : M.AlongFrom P s xs) :
    M.AlongFrom Q s xs := by
  induction xs generalizing s with
  | nil => trivial
  | cons x xs ih => exact ⟨h s x hP.1, ih hP.2⟩

theorem along_mono (h : ∀ s x, P s x → Q s x) (hP : M.Along P xs) : M.Along Q xs :=
  M.alongFrom_mono h hP

theorem alongFrom_and {s : σ} (hP : M.AlongFrom P s xs) (hQ : M.AlongFrom Q s xs) :
    M.AlongFrom (fun s x => P s x ∧ Q s x) s xs := by
  induction xs generalizing s with
  | nil => trivial
  | cons x xs ih => exact ⟨⟨hP.1, hQ.1⟩, ih hP.2 hQ.2⟩

/-- **Guarded steps**: where every guarded step preserves an invariant and meets `Q`, every guarded
run meets `Q` along. -/
theorem alongFrom_of_guarded (hstep : ∀ s x, I s → P s x → I (M.step s x).1 ∧ Q s x) {s : σ}
    (hs : I s) (hP : M.AlongFrom P s xs) : M.AlongFrom Q s xs := by
  induction xs generalizing s with
  | nil => trivial
  | cons x xs ih =>
    obtain ⟨hnext, hQ⟩ := hstep s x hs hP.1
    exact ⟨hQ, ih hnext hP.2⟩

theorem along_of_guarded (hstep : ∀ s x, I s → P s x → I (M.step s x).1 ∧ Q s x)
    (hs : I M.start) (hP : M.Along P xs) : M.Along Q xs :=
  M.alongFrom_of_guarded hstep hs hP

/-- A prefix of a transcript is the transcript of a prefix of the inputs. -/
theorem exists_of_concat_prefix_transcript {h : List (ι × ο)} {e : ι × ο}
    (hinit : h ++ [e] <+: M.transcript xs) :
    ∃ ys y, ys ++ [y] <+: xs ∧ h = M.transcript ys ∧ e = (y, (M.step (M.run ys) y).2) := by
  induction xs using List.reverseRecOn with
  | nil => simp [transcript, transcriptFrom] at hinit
  | append_singleton xs x ih =>
    rw [transcript, transcriptFrom_snoc, List.prefix_concat_iff] at hinit
    rcases hinit with heq | hinit
    · obtain ⟨rfl, hentry⟩ := List.append_inj' heq rfl
      exact ⟨xs, x, List.prefix_rfl, rfl, List.head_eq_of_cons_eq hentry⟩
    · obtain ⟨ys, y, hys, hrest⟩ := ih hinit
      exact ⟨ys, y, hys.trans (List.prefix_append ..), hrest⟩

/-- A guard on the inputs and outputs of a run. -/
theorem alongFrom_iff_transcript {P : ι × ο → Prop} {s : σ} :
    M.AlongFrom (fun s x => P (x, (M.step s x).2)) s xs ↔ ∀ e ∈ M.transcriptFrom s xs, P e := by
  induction xs generalizing s with
  | nil => simp [AlongFrom, transcriptFrom]
  | cons x xs ih => simp only [AlongFrom, transcriptFrom, List.forall_mem_cons, ih]

/-- An invariant is a guard that every step of the run meets. -/
theorem alongFrom_of_invariant (hstep : ∀ s x, I s → I (M.step s x).1) {s : σ} (hs : I s)
    (xs : List ι) : M.AlongFrom (fun s _ => I s) s xs := by
  induction xs generalizing s with
  | nil => trivial
  | cons x xs ih => exact ⟨hs, ih (hstep s x hs)⟩

/-- What every guarded step relates is related along the states of a guarded run. -/
theorem isChain_statesFrom {R : σ → σ → Prop} (hstep : ∀ s x, P s x → R s (M.step s x).1) {s : σ}
    (hP : M.AlongFrom P s xs) : (M.statesFrom s xs).IsChain R := by
  induction xs generalizing s with
  | nil => exact .singleton s
  | cons x xs ih =>
    have hrest := ih hP.2
    cases xs with
    | nil | cons y ys => exact .cons_cons (hstep s x hP.1) hrest

end Machine

/-- The paths of the labelled step relation `R`, with their labels in order. -/
inductive Trace {σ : Type u} {α : Type v} (R : σ → α → σ → Prop) : σ → List α → σ → Prop
  | nil (s : σ) : Trace R s [] s
  | cons {s t u : σ} {a : α} {as : List α} (h : R s a t) (hs : Trace R t as u) :
    Trace R s (a :: as) u

namespace Trace

variable {σ : Type u} {α : Type v} {R : σ → α → σ → Prop} {s t u : σ} {a : α} {as bs : List α}

theorem single (h : R s a t) : Trace R s [a] t := .cons h (.nil t)

theorem append (h₁ : Trace R s as t) (h₂ : Trace R t bs u) : Trace R s (as ++ bs) u := by
  induction h₁ with
  | nil s => exact h₂
  | cons h _ ih => exact .cons h (ih h₂)

/-- **The path rule with its labels**: what every step with a guarded label carries from the labels
so far to the extended ones holds at the end of every path with guarded labels. -/
theorem history_invariant {P : α → Prop} {I : σ → List α → Prop}
    (hstep : ∀ {s a t h}, I s h → P a → R s a t → I t (h ++ [a])) (h : Trace R s as t)
    {l : List α} (hs : I s l) (hP : ∀ a ∈ as, P a) : I t (l ++ as) := by
  induction h generalizing l with
  | nil s => rwa [List.append_nil]
  | @cons s t u a as h _ ih =>
    rw [List.append_cons l a as]
    refine ih (hstep hs (hP _ List.mem_cons_self) h) ?_
    exact fun a ha => hP a (List.mem_cons_of_mem _ ha)

/-- **The path rule**: what every step with a guarded label preserves, every path with guarded
labels preserves. -/
theorem invariant {P : α → Prop} {I : σ → Prop}
    (hstep : ∀ {s a t}, I s → P a → R s a t → I t) (h : Trace R s as t) (hs : I s)
    (hP : ∀ a ∈ as, P a) : I t :=
  h.history_invariant (I := fun s _ => I s) (fun hs ha h => hstep hs ha h) (l := []) hs hP

end Trace

end Library
