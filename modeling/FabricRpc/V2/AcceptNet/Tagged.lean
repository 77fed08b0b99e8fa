import FabricRpc.V2.AcceptNet.Records

namespace FabricRpc.V2

-- A net whose accepts are numbered in the order of their start. The numbers of
-- the accepts under way stand beside `accepts`, and each queue entry has the
-- number of the accept that registered it. `cancelled` are the accepts whose entry
-- a cancel has taken out. `called` are those whose handlers were called, with
-- whether that was with an error, and `failed` those of them that had no item yet.
structure Tagged (τ κ ρ : Type*) where
  net : AcceptNet τ κ ρ
  next : ℕ
  accepts : ρ → List ℕ
  entries : κ → List ℕ
  cancelled : List ℕ
  called : List (ℕ × Bool)
  failed : List ℕ

namespace Tagged

variable {τ κ ρ : Type*}

def new (home : ρ → Option κ) : Tagged τ κ ρ where
  net := .new home
  next := 0
  accepts := fun _ => []
  entries := fun _ => []
  cancelled := []
  called := []
  failed := []

-- The accept that the step registers, if it does.
def registering (s : Tagged τ κ ρ) : AcceptLabel τ κ ρ → Option ℕ
  | .pop c i => (s.accepts c)[i]?
  | _ => none

-- The accept whose entry the step takes out, with no item for it: a cancel finds
-- its own object at the back of the queue.
def cancelling [DecidableEq ρ] (s : Tagged τ κ ρ) : AcceptLabel τ κ ρ → Option ℕ
  | .cancel c => (s.net.home c).bind fun k =>
      if (s.net.queues k).queueEntries.getLast?.any (·.event = c) then (s.entries k).getLast?
      else none
  | _ => none

-- The accept that the step ends.
def ending (s : Tagged τ κ ρ) : AcceptLabel τ κ ρ → Option (ℕ × Bool)
  | .complete c i error => (s.accepts c)[i]?.map (·, error)
  | _ => none

-- A wait ends with an error before the slot of its accept was filled.
def failsEmpty (s : Tagged τ κ ρ) : AcceptLabel τ κ ρ → Bool
  | .complete c _ error => error && (s.net.ports c).holder.isNone
  | _ => false

-- The entries of a queue come and go at the tail.
def retag (tags : List ℕ) (before after : ℕ) (tag : Option ℕ) : List ℕ :=
  if before < after then tags ++ tag.toList else tags.take after

def advance [DecidableEq ρ] (s : Tagged τ κ ρ) (label : AcceptLabel τ κ ρ)
    (net : AcceptNet τ κ ρ) : Tagged τ κ ρ where
  net := net
  next :=
    match label with
    | .start _ => s.next + 1
    | _ => s.next
  accepts :=
    match label with
    | .start c => Function.update s.accepts c (s.accepts c ++ [s.next])
    | .complete c i _ => Function.update s.accepts c ((s.accepts c).eraseIdx i)
    | _ => s.accepts
  entries := fun k => retag (s.entries k) (s.net.queues k).queueEntries.length
    (net.queues k).queueEntries.length (s.registering label)
  cancelled := s.cancelled ++ (s.cancelling label).toList
  called := s.called ++ (s.ending label).toList
  failed := s.failed ++ if s.failsEmpty label then ((s.ending label).map Prod.fst).toList else []

def machine (τ κ ρ : Type*) [DecidableEq κ] [DecidableEq ρ] (kind : AcceptKind) :
    Lib.Machine (Tagged τ κ ρ) (AcceptLabel τ κ ρ) AcceptFault where
  enabled s := AcceptNet.Enabled s.net
  exec s label :=
    match AcceptNet.exec kind s.net label with
    | .error fault => .error fault
    | .ok net => .ok (s.advance label net)

-- The numbers stand where they should, and nobody has the number of another.
structure Numbered (s : Tagged τ κ ρ) : Prop where
  accepts : ∀ c, (s.accepts c).length = (s.net.ports c).accepts.length
  entries : ∀ k, (s.entries k).length = (s.net.queues k).queueEntries.length
  fresh : ∀ c, ∀ a ∈ s.accepts c, a < s.next
  nodup : ∀ c, (s.accepts c).Nodup
  apart : ∀ c d, ∀ a ∈ s.accepts c, a ∈ s.accepts d → c = d
  ended : ∀ a ∈ s.called.map Prod.fst, a < s.next ∧ ∀ c, a ∉ s.accepts c
  once : (s.called.map Prod.fst).Nodup
  failed : ∀ a ∈ s.failed, (a, true) ∈ s.called

section Tags

variable {tags : List ℕ} {before after : ℕ} {tag : Option ℕ}

theorem mem_retag {a : ℕ} (ha : a ∈ retag tags before after tag) : a ∈ tags ∨ tag = some a := by
  unfold retag at ha
  split at ha
  · rcases List.mem_append.mp ha with ha | ha
    · exact .inl ha
    · exact .inr (Option.mem_toList.mp ha)
  · exact .inl (List.mem_of_mem_take ha)

theorem length_retag (hlength : tags.length = before)
    (hgrow : before < after → after = before + 1 ∧ tag.isSome) :
    (retag tags before after tag).length = after := by
  unfold retag
  split
  · rename_i hlt
    obtain ⟨hafter, htag⟩ := hgrow hlt
    rw [List.length_append, Option.length_toList, if_pos htag]
    omega
  · rw [List.length_take]
    omega

theorem retag_self (hlength : tags.length = before) : retag tags before before tag = tags := by
  rw [retag, if_neg (lt_irrefl before), ← hlength, List.take_length]

end Tags

end Tagged

namespace AcceptNet

variable {τ κ ρ : Type*} [DecidableEq κ] [DecidableEq ρ] {kind : AcceptKind}
  {net net' : AcceptNet τ κ ρ} {label : AcceptLabel τ κ ρ}

section Lengths

omit [DecidableEq κ] in
theorem updatePort_length (net : AcceptNet τ κ ρ) (c d : ρ) {f : Port τ → Port τ}
    (hf : ∀ p, (f p).accepts.length = p.accepts.length) :
    ((net.updatePort c f).ports d).accepts.length = (net.ports d).accepts.length := by
  by_cases hd : d = c
  · subst hd
    rw [updatePort_port, hf]
  · rw [updatePort_port_ne _ _ hd]

omit [DecidableEq κ] in
theorem finish_length (net : AcceptNet τ κ ρ) (finished : Option (QueueEntry ρ ρ × τ)) (d : ρ) :
    ((net.finish finished).ports d).accepts.length = (net.ports d).accepts.length := by
  cases finished with
  | none => rfl
  | some served =>
      have hset (p : Port τ) : p.set.accepts.length = p.accepts.length := by simp [Port.set]
      have hfill (p : Port τ) : (p.fill served.2).accepts.length = p.accepts.length := rfl
      exact (updatePort_length _ _ _ hset).trans (updatePort_length _ _ _ hfill)

omit [DecidableEq κ] in
theorem setPhase_length (net : AcceptNet τ κ ρ) (c : ρ) (i : ℕ) (phase : Phase) (d : ρ) :
    ((net.setPhase c i phase).ports d).accepts.length = (net.ports d).accepts.length := by
  rw [setPhase]
  apply updatePort_length
  exact fun p => List.length_set

-- Accepts are added by their start and removed by their end.
theorem exec_accepts_length (hx : exec kind net label = .ok net')
    (hstart : ∀ c, label ≠ .start c) (hcomplete : ∀ c i error, label ≠ .complete c i error)
    (d : ρ) : (net'.ports d).accepts.length = (net.ports d).accepts.length := by
  cases label with
  | attach c l =>
      obtain rfl := setQueue_ok hx
      rfl
  | push l item =>
      obtain rfl : net.push l item = net' := Except.ok.inj hx
      exact finish_length _ _ d
  | start c => exact absurd rfl (hstart c)
  | pop c i =>
      obtain ⟨l, -, rfl⟩ := pop_ok hx
      exact (setPhase_length _ c i _ d).trans (finish_length _ _ d)
  | wait c i =>
      obtain rfl : net.wait c i = net' := Except.ok.inj hx
      exact setPhase_length net c i _ d
  | complete c i error => exact absurd rfl (hcomplete c i error)
  | cancel c =>
      obtain rfl : net.cancel c = net' := Except.ok.inj hx
      rcases cancel_cases net c with ⟨-, hc⟩ | ⟨l, -, hc⟩ <;> rw [hc]
      rfl

end Lengths

end AcceptNet

namespace Tagged

variable {τ κ ρ : Type*} [DecidableEq κ] [DecidableEq ρ] {kind : AcceptKind}
  {s s' : Tagged τ κ ρ} {label : AcceptLabel τ κ ρ}

theorem exec_ok (hx : (machine τ κ ρ kind).exec s label = .ok s') :
    ∃ net, AcceptNet.exec kind s.net label = .ok net ∧ s' = s.advance label net := by
  simp only [machine] at hx
  split at hx
  · cases hx
  · rename_i net hnet
    exact ⟨net, hnet, (Except.ok.inj hx).symm⟩

theorem exec_of_ok {net : AcceptNet τ κ ρ} (hx : AcceptNet.exec kind s.net label = .ok net) :
    (machine τ κ ρ kind).exec s label = .ok (s.advance label net) := by
  simp only [machine, hx]

-- A pop registers an accept that is under way.
omit [DecidableEq κ] [DecidableEq ρ] in
theorem Numbered.registering (h : Numbered s) {c : ρ} {i : ℕ}
    (henabled : AcceptNet.Enabled s.net (.pop c i)) :
    (s.registering (.pop c i)).isSome := by
  have hlt : i < (s.accepts c).length := by
    rw [h.accepts]
    exact (List.getElem?_eq_some_iff.mp henabled).1
  rw [Tagged.registering, List.getElem?_eq_getElem hlt]
  rfl

theorem Numbered.advance_entries (h : Numbered s) (henabled : AcceptNet.Enabled s.net label)
    {net : AcceptNet τ κ ρ} (hx : AcceptNet.exec kind s.net label = .ok net) (k : κ) :
    ((s.advance label net).entries k).length = (net.queues k).queueEntries.length := by
  apply length_retag (h.entries k)
  intro hlt
  rcases AcceptNet.exec_queueEntries hx k with hpre | ⟨c, i, rfl, -, hgrow⟩
  · have hle := hpre.length_le
    omega
  · exact ⟨by rw [hgrow, List.length_append, List.length_singleton], h.registering henabled⟩

theorem Numbered.advance_accepts (h : Numbered s) (henabled : AcceptNet.Enabled s.net label)
    {net : AcceptNet τ κ ρ} (hx : AcceptNet.exec kind s.net label = .ok net) (d : ρ) :
    ((s.advance label net).accepts d).length = (net.ports d).accepts.length := by
  cases label with
  | start c =>
      obtain rfl := AcceptNet.start_ok hx
      by_cases hd : d = c
      · subst hd
        simp [advance, h.accepts]
      · simp [advance, hd, h.accepts, AcceptNet.updatePort_port_ne _ _ hd]
  | complete c i error =>
      obtain ⟨fired, hi, -⟩ := henabled
      have hlt := (List.getElem?_eq_some_iff.mp hi).1
      obtain ⟨rest, rfl⟩ := AcceptNet.complete_ok hx
      by_cases hd : d = c
      · subst hd
        simp [advance, AcceptNet.handOver, List.length_eraseIdx_of_lt, hlt, h.accepts]
      · simp [advance, AcceptNet.handOver, AcceptNet.updatePort, hd, h.accepts]
  | attach c k =>
      rw [AcceptNet.exec_accepts_length hx (by simp) (by simp), ← h.accepts]
      rfl
  | push k item =>
      rw [AcceptNet.exec_accepts_length hx (by simp) (by simp), ← h.accepts]
      rfl
  | pop c i =>
      rw [AcceptNet.exec_accepts_length hx (by simp) (by simp), ← h.accepts]
      rfl
  | wait c i =>
      rw [AcceptNet.exec_accepts_length hx (by simp) (by simp), ← h.accepts]
      rfl
  | cancel c =>
      rw [AcceptNet.exec_accepts_length hx (by simp) (by simp), ← h.accepts]
      rfl

-- A step that neither starts nor ends an accept leaves the numbers alone.
omit [DecidableEq κ] in
theorem advance_same (s : Tagged τ κ ρ) (net : AcceptNet τ κ ρ) (hstart : ∀ c, label ≠ .start c)
    (hcomplete : ∀ c i error, label ≠ .complete c i error) :
    (s.advance label net).accepts = s.accepts ∧ (s.advance label net).next = s.next ∧
      (s.advance label net).called = s.called ∧ (s.advance label net).failed = s.failed := by
  cases label with
  | start c => exact absurd rfl (hstart c)
  | complete c i error => exact absurd rfl (hcomplete c i error)
  | _ => simp [advance, ending, failsEmpty]

-- The accept that a completion ends.
omit [DecidableEq κ] [DecidableEq ρ] in
theorem Numbered.ending (h : Numbered s) {c : ρ} {i : ℕ} {error : Bool}
    (henabled : AcceptNet.Enabled s.net (.complete c i error)) :
    ∃ hlt : i < (s.accepts c).length, s.ending (.complete c i error) =
      some ((s.accepts c)[i], error) := by
  obtain ⟨fired, hi, -⟩ := henabled
  have hlt : i < (s.accepts c).length := by
    rw [h.accepts]
    exact (List.getElem?_eq_some_iff.mp hi).1
  refine ⟨hlt, ?_⟩
  rw [Tagged.ending, List.getElem?_eq_getElem hlt]
  rfl

theorem start_numbered (h : Numbered s) {c : ρ} {net : AcceptNet τ κ ρ}
    (hx : AcceptNet.exec kind s.net (.start c) = .ok net) :
    Numbered (s.advance (.start c) net) := by
  have hmem (d : ρ) (a : ℕ) (ha : a ∈ (s.advance (.start c) net).accepts d) :
      a ∈ s.accepts d ∨ a = s.next ∧ d = c := by
    by_cases hd : d = c
    · subst hd
      simpa [advance] using ha
    · simp only [advance, Function.update_of_ne hd] at ha
      exact .inl ha
  have hcalled : (s.advance (.start c) net).called = s.called := by simp [advance, Tagged.ending]
  have henabled : AcceptNet.Enabled s.net (.start c) := trivial
  refine ⟨h.advance_accepts henabled hx, h.advance_entries henabled hx, ?_, ?_, ?_, ?_, ?_, ?_⟩
  · intro d a ha
    show a < s.next + 1
    rcases hmem d a ha with ha | ⟨rfl, -⟩
    · have hlt := h.fresh d a ha
      omega
    · omega
  · intro d
    by_cases hd : d = c
    · subst hd
      simp only [advance, Function.update_self, List.nodup_append, List.nodup_singleton, true_and]
      refine ⟨h.nodup d, ?_⟩
      rintro a ha b hb rfl
      have hlt := h.fresh d a ha
      rw [List.mem_singleton.mp hb] at hlt
      omega
    · simp only [advance, Function.update_of_ne hd]
      exact h.nodup d
  · intro d e a had hae
    rcases hmem d a had with hd | ⟨rfl, rfl⟩
    · rcases hmem e a hae with he | ⟨rfl, rfl⟩
      · exact h.apart d e a hd he
      · exact absurd (h.fresh d _ hd) (lt_irrefl _)
    · rcases hmem e _ hae with he | ⟨-, rfl⟩
      · exact absurd (h.fresh e _ he) (lt_irrefl _)
      · rfl
  · intro a ha
    rw [hcalled] at ha
    obtain ⟨hlt, hnot⟩ := h.ended a ha
    refine ⟨Nat.lt_succ_of_lt hlt, fun d hd => ?_⟩
    rcases hmem d a hd with hd | ⟨rfl, -⟩
    · exact hnot d hd
    · exact absurd hlt (lt_irrefl _)
  · rw [hcalled]
    exact h.once
  · intro a ha
    rw [hcalled]
    exact h.failed a (by simpa [advance, failsEmpty] using ha)

theorem complete_numbered (h : Numbered s) {c : ρ} {i : ℕ} {error : Bool} {net : AcceptNet τ κ ρ}
    (henabled : AcceptNet.Enabled s.net (.complete c i error))
    (hx : AcceptNet.exec kind s.net (.complete c i error) = .ok net) :
    Numbered (s.advance (.complete c i error) net) := by
  obtain ⟨hlt, hending⟩ := h.ending henabled
  have hin : (s.accepts c)[i] ∈ s.accepts c := List.getElem_mem hlt
  have hmem (d : ρ) (a : ℕ) (ha : a ∈ (s.advance (.complete c i error) net).accepts d) :
      a ∈ s.accepts d ∧ a ≠ (s.accepts c)[i] := by
    by_cases hd : d = c
    · subst hd
      simp only [advance, Function.update_self] at ha
      refine ⟨List.mem_of_mem_eraseIdx ha, ?_⟩
      rintro rfl
      rw [← List.Nodup.erase_getElem (h.nodup d) i hlt] at ha
      exact (h.nodup d).not_mem_erase ha
    · simp only [advance, Function.update_of_ne hd] at ha
      refine ⟨ha, ?_⟩
      rintro rfl
      exact hd (h.apart d c _ ha hin)
  have hcalled : (s.advance (.complete c i error) net).called =
      s.called ++ [((s.accepts c)[i], error)] := by
    simp only [advance, hending]
    rfl
  refine ⟨h.advance_accepts henabled hx, h.advance_entries henabled hx, ?_, ?_, ?_, ?_, ?_, ?_⟩
  · exact fun d a ha => h.fresh d a (hmem d a ha).1
  · intro d
    by_cases hd : d = c
    · subst hd
      simp only [advance, Function.update_self]
      exact (h.nodup d).sublist (List.eraseIdx_sublist _ _)
    · simp only [advance, Function.update_of_ne hd]
      exact h.nodup d
  · exact fun d e a had hae => h.apart d e a (hmem d a had).1 (hmem e a hae).1
  · intro a ha
    rw [hcalled, List.map_append, List.mem_append] at ha
    rcases ha with ha | ha
    · obtain ⟨hfresh, hnot⟩ := h.ended a ha
      exact ⟨hfresh, fun d hd => hnot d (hmem d a hd).1⟩
    · obtain rfl := List.mem_singleton.mp ha
      exact ⟨h.fresh c _ hin, fun d hd => (hmem d _ hd).2 rfl⟩
  · rw [hcalled, List.map_append, List.nodup_append]
    refine ⟨h.once, List.nodup_singleton _, ?_⟩
    rintro a ha b hb rfl
    obtain rfl := List.mem_singleton.mp hb
    exact (h.ended _ ha).2 c hin
  · intro a ha
    rw [hcalled]
    simp only [advance, List.mem_append] at ha
    rcases ha with ha | ha
    · exact List.mem_append_left _ (h.failed a ha)
    · split at ha
      · rename_i hfails
        obtain rfl : error = true := (Bool.and_eq_true_iff.mp hfails).1
        rw [hending] at ha
        obtain rfl := List.mem_singleton.mp ha
        exact List.mem_append_right _ (List.mem_singleton_self _)
      · exact absurd ha List.not_mem_nil

theorem exec_numbered (h : Numbered s) (henabled : AcceptNet.Enabled s.net label)
    (hx : (machine τ κ ρ kind).exec s label = .ok s') : Numbered s' := by
  obtain ⟨net, hnet, rfl⟩ := exec_ok hx
  by_cases hstart : ∃ c, label = .start c
  · obtain ⟨c, rfl⟩ := hstart
    exact start_numbered h hnet
  · by_cases hcomplete : ∃ c i error, label = .complete c i error
    · obtain ⟨c, i, error, rfl⟩ := hcomplete
      exact complete_numbered h henabled hnet
    · push Not at hstart hcomplete
      obtain ⟨haccepts, hnext, hcalled, hfailed⟩ := advance_same s net hstart hcomplete
      refine ⟨h.advance_accepts henabled hnet, h.advance_entries henabled hnet, ?_, ?_, ?_, ?_, ?_,
        ?_⟩
      · rw [haccepts, hnext]
        exact h.fresh
      · rw [haccepts]
        exact h.nodup
      · rw [haccepts]
        exact h.apart
      · rw [haccepts, hnext, hcalled]
        exact h.ended
      · rw [hcalled]
        exact h.once
      · rw [hcalled, hfailed]
        exact h.failed

end Tagged

end FabricRpc.V2
