import Mathlib.Tactic.TypeStar

namespace FabricRpc.Lib

-- A label is either blocked in a state or can be taken there. Taking it ends
-- in the next state or in a fault.
structure Machine (σ ι φ : Type*) where
  enabled : σ → ι → Prop
  exec : σ → ι → Except φ σ

namespace Machine

variable {σ ι φ : Type*}

-- The runs from `start`. `allow` is what the surroundings promise about the
-- next label, given the labels so far and the state they led to.
inductive Run (m : Machine σ ι φ) (allow : List ι → σ → ι → Prop) (start : σ) :
    List ι → σ → Prop
  | nil : Run m allow start [] start
  | snoc {labels : List ι} {s s' : σ} {label : ι} : Run m allow start labels s →
      allow labels s label → m.enabled s label → m.exec s label = .ok s' →
      Run m allow start (labels ++ [label]) s'

-- Nothing is promised.
def anything : List ι → σ → ι → Prop := fun _ _ _ => True

variable {m : Machine σ ι φ} {allow : List ι → σ → ι → Prop} {start s : σ} {labels : List ι}

-- The induction over runs: what holds at the start and is kept by every
-- step holds after every run. The invariant may speak about the labels taken.
theorem Run.invariant (inv : List ι → σ → Prop) (hstart : inv [] start)
    (hstep : ∀ labels s label s', inv labels s → allow labels s label → m.enabled s label →
      m.exec s label = .ok s' → inv (labels ++ [label]) s')
    (hrun : m.Run allow start labels s) : inv labels s := by
  induction hrun with
  | nil => exact hstart
  | snoc _ ha he hx ih => exact hstep _ _ _ _ ih ha he hx

-- An invariant that never mentions the labels.
theorem Run.state_invariant (inv : σ → Prop) (hstart : inv start)
    (hstep : ∀ labels s label s', inv s → allow labels s label → m.enabled s label →
      m.exec s label = .ok s' → inv s')
    (hrun : m.Run allow start labels s) : inv s :=
  hrun.invariant (fun _ => inv) hstart hstep

-- A promise may be forgotten.
theorem Run.weaken {allow' : List ι → σ → ι → Prop} (hrun : m.Run allow start labels s)
    (h : ∀ labels s label, allow labels s label → allow' labels s label) :
    m.Run allow' start labels s := by
  induction hrun with
  | nil => exact .nil
  | snoc _ ha he hx ih => exact .snoc ih (h _ _ _ ha) he hx

-- Two promises that come to the same at every step, as far as an invariant
-- goes, allow the same runs.
theorem Run.congr {allow' : List ι → σ → ι → Prop} (inv : List ι → σ → Prop)
    (hstart : inv [] start)
    (hstep : ∀ labels s label s', inv labels s → allow' labels s label → m.enabled s label →
      m.exec s label = .ok s' → inv (labels ++ [label]) s')
    (hiff : ∀ labels s label s', inv labels s → m.enabled s label → m.exec s label = .ok s' →
      (allow labels s label ↔ allow' labels s label)) :
    m.Run allow start labels s ↔ m.Run allow' start labels s := by
  constructor
  · intro hrun
    induction hrun with
    | nil => exact .nil
    | snoc _ ha he hx ih =>
        have hinv := ih.invariant inv hstart hstep
        exact .snoc ih ((hiff _ _ _ _ hinv he hx).mp ha) he hx
  · intro hrun
    induction hrun with
    | nil => exact .nil
    | snoc hrun ha he hx ih =>
        have hinv := hrun.invariant inv hstart hstep
        exact .snoc ih ((hiff _ _ _ _ hinv he hx).mpr ha) he hx

-- Follows a list of labels, as long as each is promised and enabled and there is
-- no fault.
def reaches (m : Machine σ ι φ) (allow : List ι → σ → ι → Prop)
    [∀ labels s label, Decidable (allow labels s label)]
    [∀ s label, Decidable (m.enabled s label)] (before : List ι) (s : σ) : List ι → Option σ
  | [] => some s
  | label :: labels =>
      if allow before s label ∧ m.enabled s label then
        match m.exec s label with
        | .ok s' => m.reaches allow (before ++ [label]) s' labels
        | .error _ => none
      else none

theorem Run.reaches [∀ labels s label, Decidable (allow labels s label)]
    [∀ s label, Decidable (m.enabled s label)] {more : List ι} {s' : σ}
    (hrun : m.Run allow start labels s) (h : m.reaches allow labels s more = some s') :
    m.Run allow start (labels ++ more) s' := by
  induction more generalizing labels s with
  | nil =>
      obtain rfl := Option.some.inj h
      simpa using hrun
  | cons label more ih =>
      unfold Machine.reaches at h
      split at h
      · rename_i hstep
        split at h
        · rename_i next hx
          have htail := ih (hrun.snoc hstep.1 hstep.2 hx) h
          simpa using htail
        · cases h
      · cases h

end Machine

end FabricRpc.Lib
