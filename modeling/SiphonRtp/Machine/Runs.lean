import Mathlib.Data.List.Basic
import Mathlib.Data.Nat.Init

/-!
# Runs of a deterministic machine

A machine is a step function `σ → α → β × σ`: an input produces an output and the next state.
`outputs` collects what a list of inputs produces, oldest first, and `final` is the state the list
leaves behind. The state before input `k` of a run is `final step start (inputs.take k)`, and every
fact about a position of a run is stated through it (`getElem?_outputs`, `final_take_succ`).

Three rules carry the inductions of the modules above this one. `final_invariant` lifts what one
step preserves to a whole run. `final_take_rel` relates the states before two positions of one run
when every step is contained in a reflexive and transitive relation. `outputs_eq_of_simulation`
compares two runs over the same inputs, as long as the outputs of the first one stay good.

A machine that passes its inputs on to another one has the runs of that one
(`final_map_of_projection`, `outputs_map_of_projection`, `trace_map_of_projection`). Inputs that
leave the state where it was can be deleted: one of them at a position (`outputs_eraseIdx`), or all
whose outputs are not loud, and then the run over the loud inputs alone is the loud part of the
whole run (`trace_loudInputs`).
-/

set_option autoImplicit false

namespace SiphonRtp.Machine

variable {σ τ α β : Type*}

/-- The outputs of a run, oldest first. -/
def outputs (step : σ → α → β × σ) : σ → List α → List β
  | _, [] => []
  | state, input :: rest => (step state input).1 :: outputs step (step state input).2 rest

/-- The state a run ends in. -/
def final (step : σ → α → β × σ) : σ → List α → σ
  | state, [] => state
  | state, input :: rest => final step (step state input).2 rest

/-- The inputs of a run, each with the output it produced. -/
def trace (step : σ → α → β × σ) : σ → List α → List (α × β)
  | _, [] => []
  | state, input :: rest =>
    (input, (step state input).1) :: trace step (step state input).2 rest

section Positions

variable (step : σ → α → β × σ)

@[simp] theorem outputs_nil (state : σ) : outputs step state [] = [] := rfl

@[simp] theorem outputs_cons (state : σ) (input : α) (rest : List α) :
    outputs step state (input :: rest) =
      (step state input).1 :: outputs step (step state input).2 rest := rfl

@[simp] theorem final_nil (state : σ) : final step state [] = state := rfl

@[simp] theorem final_cons (state : σ) (input : α) (rest : List α) :
    final step state (input :: rest) = final step (step state input).2 rest := rfl

@[simp] theorem trace_cons (state : σ) (input : α) (rest : List α) :
    trace step state (input :: rest) =
      (input, (step state input).1) :: trace step (step state input).2 rest := rfl

theorem length_outputs (state : σ) (inputs : List α) :
    (outputs step state inputs).length = inputs.length := by
  induction inputs generalizing state with
  | nil => rfl
  | cons input rest ih => simp [ih]

theorem final_append (state : σ) (first second : List α) :
    final step state (first ++ second) = final step (final step state first) second := by
  induction first generalizing state with
  | nil => rfl
  | cons input rest ih => simp [ih]

theorem outputs_append (state : σ) (first second : List α) :
    outputs step state (first ++ second) =
      outputs step state first ++ outputs step (final step state first) second := by
  induction first generalizing state with
  | nil => rfl
  | cons input rest ih => simp [ih]

theorem outputs_take (state : σ) (inputs : List α) (k : ℕ) :
    outputs step state (inputs.take k) = (outputs step state inputs).take k := by
  induction inputs generalizing state k with
  | nil => simp
  | cons input rest ih =>
    cases k with
    | zero => simp
    | succ k => simp [ih]

/-- The output at a position is what the step produces from the state before it. -/
theorem getElem?_outputs (state : σ) (inputs : List α) (k : ℕ) :
    (outputs step state inputs)[k]? =
      inputs[k]?.map fun input ↦ (step (final step state (inputs.take k)) input).1 := by
  induction inputs generalizing state k with
  | nil => simp
  | cons input rest ih =>
    cases k with
    | zero => simp
    | succ k => simp [ih]

theorem getElem?_outputs_of_eq {inputs : List α} {k : ℕ} {input : α}
    (hinput : inputs[k]? = some input) (state : σ) :
    (outputs step state inputs)[k]? =
      some (step (final step state (inputs.take k)) input).1 := by
  rw [getElem?_outputs, hinput, Option.map_some]

/-- What a run produced at a position is what its step produced there. -/
theorem output_at {inputs : List α} {k : ℕ} {input : α} {output : β} {state : σ}
    (hinput : inputs[k]? = some input)
    (houtput : (outputs step state inputs)[k]? = some output) :
    (step (final step state (inputs.take k)) input).1 = output :=
  Option.some.inj ((getElem?_outputs_of_eq step hinput state).symm.trans houtput)

/-- The state before a later position is where the inputs in between lead from an earlier one. -/
theorem final_take_of_le (state : σ) (inputs : List α) {i j : ℕ} (hij : i ≤ j) :
    final step state (inputs.take j) =
      final step (final step state (inputs.take i)) ((inputs.take j).drop i) := by
  rw [← final_append]
  congr 1
  conv_lhs => rw [← List.take_append_drop i (inputs.take j)]
  rw [List.take_take, Nat.min_eq_left hij]

/-- The state after position `k` is one step from the state before it. -/
theorem final_take_succ {inputs : List α} {k : ℕ} {input : α}
    (hinput : inputs[k]? = some input) (state : σ) :
    final step state (inputs.take (k + 1)) =
      (step (final step state (inputs.take k)) input).2 := by
  rw [List.take_add_one, hinput, final_append]
  rfl

/-- An input that leaves the state alone can be left out: the run without it has the other outputs,
unchanged. -/
theorem outputs_eraseIdx {inputs : List α} {k : ℕ} {input : α} (hinput : inputs[k]? = some input)
    (state : σ) (hsilent : (step (final step state (inputs.take k)) input).2 =
      final step state (inputs.take k)) :
    outputs step state (inputs.eraseIdx k) = (outputs step state inputs).eraseIdx k := by
  induction inputs generalizing state k with
  | nil => simp at hinput
  | cons first rest ih =>
    cases k with
    | zero =>
      obtain rfl : first = input := by simpa using hinput
      simpa using congrArg (outputs step · rest) hsilent.symm
    | succ k =>
      simp only [List.eraseIdx_cons_succ, outputs_cons]
      rw [ih hinput _ hsilent]

end Positions

/-- What every input of a run preserves holds at its end. -/
theorem final_invariant {step : σ → α → β × σ} (Invariant : σ → Prop) {inputs : List α}
    (hstep : ∀ state, ∀ input ∈ inputs, Invariant state → Invariant (step state input).2)
    {start : σ} (hstart : Invariant start) : Invariant (final step start inputs) := by
  induction inputs generalizing start with
  | nil => exact hstart
  | cons input rest ih =>
    refine ih (fun state other hother ↦ ?_) (hstep start input (by simp) hstart)
    exact hstep state other (List.mem_cons_of_mem input hother)

/-- Induction along the positions of a run: what holds at the start and is carried over each input
holds before every position. The invariant may speak about the position. -/
theorem final_take_induction {step : σ → α → β × σ} (Invariant : ℕ → σ → Prop) {start : σ}
    {inputs : List α} (hstart : Invariant 0 start)
    (hstep : ∀ k input, inputs[k]? = some input →
      Invariant k (final step start (inputs.take k)) →
        Invariant (k + 1) (step (final step start (inputs.take k)) input).2)
    {k : ℕ} (hk : k ≤ inputs.length) : Invariant k (final step start (inputs.take k)) := by
  induction k with
  | zero => exact hstart
  | succ k ih =>
    have hinput : inputs[k]? = some inputs[k] := List.getElem?_eq_getElem hk
    rw [final_take_succ step hinput]
    exact hstep k _ hinput (ih (Nat.le_of_succ_le hk))

/-- Induction along the positions of a run with what it has produced so far. -/
theorem run_take_induction {step : σ → α → β × σ} (Invariant : σ → List β → Prop) {start : σ}
    {inputs : List α} (hstart : Invariant start [])
    (hstep : ∀ k input, inputs[k]? = some input →
      Invariant (final step start (inputs.take k)) (outputs step start (inputs.take k)) →
        Invariant (step (final step start (inputs.take k)) input).2
          (outputs step start (inputs.take k) ++
            [(step (final step start (inputs.take k)) input).1]))
    {k : ℕ} (hk : k ≤ inputs.length) :
    Invariant (final step start (inputs.take k)) (outputs step start (inputs.take k)) := by
  refine final_take_induction (fun k state ↦ Invariant state (outputs step start (inputs.take k)))
    hstart (fun k input hinput hbefore ↦ ?_) hk
  rw [List.take_add_one, hinput, outputs_append]
  exact hstep k input hinput hbefore

/-- When every step is contained in a reflexive and transitive relation, so is the passage from any
position of a run to any later one. -/
theorem final_take_rel {step : σ → α → β × σ} (Rel : σ → σ → Prop) (hrefl : ∀ s, Rel s s)
    (htrans : ∀ {a b c}, Rel a b → Rel b c → Rel a c)
    (hstep : ∀ state input, Rel state (step state input).2) (start : σ) (inputs : List α)
    {i j : ℕ} (hij : i ≤ j) :
    Rel (final step start (inputs.take i)) (final step start (inputs.take j)) := by
  induction j, hij using Nat.le_induction with
  | base => exact hrefl _
  | succ j hij ih =>
    rcases hinput : inputs[j]? with _ | input
    · have hlength : inputs.length ≤ j := List.getElem?_eq_none_iff.mp hinput
      rw [List.take_of_length_le (Nat.le_succ_of_le hlength)]
      rwa [List.take_of_length_le hlength] at ih
    · rw [final_take_succ step hinput]
      exact htrans ih (hstep _ input)

/-- Two machines over the same inputs produce the same outputs when a relation between their
states survives every step whose output is good, and the outputs of the first run are good. -/
theorem outputs_eq_of_simulation {first : σ → α → β × σ} {second : τ → α → β × τ}
    (Related : σ → τ → Prop) (Good : β → Prop)
    (hstep : ∀ s t input, Related s t → Good (first s input).1 →
      (second t input).1 = (first s input).1 ∧ Related (first s input).2 (second t input).2)
    {s : σ} {t : τ} (hstart : Related s t) {inputs : List α}
    (hgood : ∀ output ∈ outputs first s inputs, Good output) :
    outputs second t inputs = outputs first s inputs := by
  induction inputs generalizing s t with
  | nil => rfl
  | cons input rest ih =>
    obtain ⟨heq, hnext⟩ := hstep s t input hstart (hgood _ (by simp))
    rw [outputs_cons]
    congr 1
    exact ih hnext fun output houtput ↦ hgood output (by simp [houtput])

/-! ### A machine behind another -/

section Projection

variable {γ : Type*} {first : σ → α → β × σ} {second : τ → γ → β × τ} (project : σ → τ)
  (encode : α → γ)

/-- A machine that passes each input on to another one, which holds a part of its state, ends with
that part where the other machine ends. -/
theorem final_map_of_projection
    (hstep : ∀ state input, second (project state) (encode input) =
      ((first state input).1, project (first state input).2)) (state : σ) (inputs : List α) :
    final second (project state) (inputs.map encode) = project (final first state inputs) := by
  induction inputs generalizing state with
  | nil => rfl
  | cons input rest ih =>
    rw [List.map_cons, final_cons, hstep]
    exact ih _

/-- The outputs of such a machine are those of the other one. -/
theorem outputs_map_of_projection
    (hstep : ∀ state input, second (project state) (encode input) =
      ((first state input).1, project (first state input).2)) (state : σ) (inputs : List α) :
    outputs second (project state) (inputs.map encode) = outputs first state inputs := by
  induction inputs generalizing state with
  | nil => rfl
  | cons input rest ih =>
    rw [List.map_cons, outputs_cons, hstep]
    exact congrArg _ (ih _)

/-- Its trace is the trace of the other one, up to the encoding. -/
theorem trace_map_of_projection
    (hstep : ∀ state input, second (project state) (encode input) =
      ((first state input).1, project (first state input).2)) (state : σ) (inputs : List α) :
    trace second (project state) (inputs.map encode) =
      (trace first state inputs).map fun entry ↦ (encode entry.1, entry.2) := by
  induction inputs generalizing state with
  | nil => rfl
  | cons input rest ih =>
    rw [List.map_cons, trace_cons, hstep]
    exact congrArg _ (ih _)

end Projection

/-! ### Deleting silent inputs -/

/-- The inputs of a run whose outputs are loud. -/
def loudInputs (step : σ → α → β × σ) (loud : β → Bool) (state : σ) (inputs : List α) : List α :=
  ((trace step state inputs).filter fun entry ↦ loud entry.2).map Prod.fst

section Deletion

variable {step : σ → α → β × σ} {loud : β → Bool}

theorem loudInputs_cons (state : σ) (input : α) (rest : List α) :
    loudInputs step loud state (input :: rest) =
      if loud (step state input).1 then
        input :: loudInputs step loud (step state input).2 rest
      else loudInputs step loud (step state input).2 rest := by
  simp only [loudInputs, trace_cons, List.filter_cons]
  split_ifs <;> rfl

/-- Deletion of silent inputs. Assumes: along the run, an input whose output is not loud leaves the
state where it was. Then the run over the loud inputs alone is the loud part of the whole run, and
ends in the same state. -/
theorem run_loudInputs {state : σ} {inputs : List α}
    (hsilent : ∀ k input, inputs[k]? = some input →
      loud (step (final step state (inputs.take k)) input).1 = false →
        (step (final step state (inputs.take k)) input).2 = final step state (inputs.take k)) :
    trace step state (loudInputs step loud state inputs) =
        (trace step state inputs).filter (fun entry ↦ loud entry.2) ∧
      final step state (loudInputs step loud state inputs) = final step state inputs := by
  induction inputs generalizing state with
  | nil => exact ⟨rfl, rfl⟩
  | cons input rest ih =>
    have hfirst := hsilent 0 input rfl
    obtain ⟨htrace, hfinal⟩ := @ih (step state input).2
      fun k other hother hquiet ↦ hsilent (k + 1) other hother hquiet
    rw [loudInputs_cons, trace_cons, final_cons, List.filter_cons]
    rcases hloud : loud (step state input).1 with _ | _
    · have hstays : (step state input).2 = state := hfirst hloud
      rw [hstays] at htrace hfinal ⊢
      exact ⟨htrace, hfinal⟩
    · simp only [↓reduceIte, trace_cons]
      exact ⟨by rw [htrace], hfinal⟩

/-- Deletion of silent inputs. Assumes: an input whose output is not loud leaves the state where it
was. Then the run over the loud inputs alone is the loud part of the whole run. -/
theorem trace_loudInputs
    (hsilent : ∀ state input, loud (step state input).1 = false → (step state input).2 = state)
    (state : σ) (inputs : List α) :
    trace step state (loudInputs step loud state inputs) =
      (trace step state inputs).filter fun entry ↦ loud entry.2 :=
  (run_loudInputs fun _ input _ hquiet ↦ hsilent _ input hquiet).1

/-- Deletion of silent inputs keeps the final state. Assumes: as in `trace_loudInputs`. -/
theorem final_loudInputs
    (hsilent : ∀ state input, loud (step state input).1 = false → (step state input).2 = state)
    (state : σ) (inputs : List α) :
    final step state (loudInputs step loud state inputs) = final step state inputs :=
  (run_loudInputs fun _ input _ hquiet ↦ hsilent _ input hquiet).2

end Deletion

end SiphonRtp.Machine
