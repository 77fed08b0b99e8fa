import FabricRpc.V2.AcceptNet.Progress

namespace FabricRpc.V2.Tagged

open AcceptNet (Enabled InOrder Delivers)

variable {τ κ ρ : Type*} [DecidableEq κ] [DecidableEq ρ] {kind : AcceptKind}
  {s s' : Tagged τ κ ρ} {label : AcceptLabel τ κ ρ} {labels : List (AcceptLabel τ κ ρ)}
  {net : AcceptNet τ κ ρ} {c : ρ}

-- What a failure before the slot was filled needs of the calls before it: the accept
-- is that of a request, and a cancel has taken its entry out of the queue.
def Withdrawn (kind : AcceptKind) (s : Tagged τ κ ρ) (label : AcceptLabel τ κ ρ) : Prop :=
  s.failsEmpty label = true →
    kind = .request ∧ ∀ a error, s.ending label = some (a, error) → a ∈ s.cancelled

-- An accept that is past its pop is registered, unless it was served or cancelled.
structure Withdrawals (s : Tagged τ κ ρ) : Prop where
  fresh : ∀ a ∈ s.cancelled, a < s.next
  gone : ∀ c, ∀ a ∈ s.accepts c, a ∈ s.cancelled →
    ¬s.net.Waits c ∧ .started ∉ (s.net.ports c).accepts
  registered : ∀ c, ∀ a ∈ s.accepts c, .started ∉ (s.net.ports c).accepts →
    (s.net.ports c).holder = none → a ∈ s.cancelled ∨ s.net.Waits c

-- The accepts that are cancelled after a step.
theorem Owned.mem_cancelled (h : Owned kind labels s) {a : ℕ} :
    a ∈ (s.advance label net).cancelled ↔ a ∈ s.cancelled ∨
      ∃ c k, label = .cancel c ∧ s.net.AtBack k c ∧ a ∈ s.accepts c := by
  rw [← h.cancelling_iff]
  simp [advance]

theorem exec_withdrawals (h : Owned kind labels s) (hw : Withdrawals s)
    (horder : InOrder s.net label) (henabled : Enabled s.net label)
    (hx : AcceptNet.exec kind s.net label = .ok net) : Withdrawals (s.advance label net) where
  fresh := by
    intro a ha
    have hnext : s.next ≤ (s.advance label net).next := by
      cases label <;> simp [advance]
    rcases h.mem_cancelled.mp ha with ha | ⟨c, k, -, -, ha⟩
    · exact lt_of_lt_of_le (hw.fresh a ha) hnext
    · exact lt_of_lt_of_le (h.numbered.fresh c a ha) hnext
  gone := by
    intro c a ha hcancelled
    rcases h.mem_cancelled.mp hcancelled with hold | ⟨d, k, rfl, hback, hd⟩
    · cases h.exec_progress horder henabled hx c with
      | keeps hsame hstarted hholder hwaits =>
          obtain ⟨hnot, hphases⟩ := hw.gone c a (hsame ▸ ha) hold
          exact ⟨fun hnew => hnot (hwaits hnew), fun hnew => hphases (hstarted.mp hnew)⟩
      | fills hsame hstarted hholder hwaits =>
          obtain ⟨hnot, hphases⟩ := hw.gone c a (hsame ▸ ha) hold
          exact ⟨fun hnew => hnot (hwaits hnew), fun hnew => hphases (hstarted.mp hnew)⟩
      | starts hnew hstarted =>
          rw [hnew, List.mem_singleton] at ha
          exact absurd (hw.fresh a hold) (by omega)
      | pops hsame hstarted hserved =>
          exact absurd hstarted (hw.gone c a (hsame ▸ ha) hold).2
      | ends hnone =>
          rw [hnone] at ha
          exact absurd ha List.not_mem_nil
    · obtain rfl := h.numbered.apart c d a ha hd
      obtain rfl : s.net.cancel c = net := Except.ok.inj hx
      refine ⟨h.inTime.cancel_stops hback, fun hstarted => ?_⟩
      rw [show (s.advance (.cancel c) (s.net.cancel c)).net.ports = s.net.ports from
        AcceptNet.cancel_ports s.net c] at hstarted
      exact ((h.inTime.ports c).started hstarted).1 hback.waits
  registered := by
    intro c a ha hstarted hholder
    by_contra hnone
    rw [not_or, h.mem_cancelled, not_or] at hnone
    obtain ⟨⟨hold, hnew⟩, hstops⟩ := hnone
    cases h.exec_progress horder henabled hx c with
    | keeps hsame hphases hslot hwaits =>
        have hreg := hw.registered c a (hsame ▸ ha) (fun hmem => hstarted (hphases.mpr hmem))
          (hslot ▸ hholder)
        rcases h.inTime.stops_waiting hx (hreg.resolve_left hold) hstops with
          hsome | ⟨rfl, k, hback⟩
        · rw [show (net.ports c).holder = none from hholder] at hsome
          exact absurd hsome (by simp)
        · exact hnew ⟨c, k, rfl, hback, hsame ▸ ha⟩
    | fills hsame hphases hsome hwaits => simp [hholder] at hsome
    | starts hnext hmem => exact hstarted hmem
    | pops hsame hmem hserved =>
        rcases hserved with hwaits | hsome
        · exact hstops hwaits
        · simp [hholder] at hsome
    | ends hnil =>
        rw [hnil] at ha
        exact absurd ha List.not_mem_nil

-- The accept that a failure before the slot was filled ends. It is past its pop.
theorem Owned.failing (h : Owned kind labels s) (henabled : Enabled s.net label)
    (hfails : s.failsEmpty label = true) {a : ℕ} {error : Bool}
    (hending : s.ending label = some (a, error)) :
    ∃ c, a ∈ s.accepts c ∧ (s.net.ports c).holder = none ∧ .started ∉ (s.net.ports c).accepts := by
  obtain ⟨c, i, rfl, hholder⟩ := failsEmpty_iff.mp hfails
  obtain ⟨hlt, hnumber⟩ := h.numbered.ending henabled
  obtain ⟨fired, hi, -⟩ := henabled
  obtain ⟨-, hphases⟩ := (h.inTime.ports c).accepts_eq hi
  obtain ⟨rfl, -⟩ := Prod.mk.inj (Option.some.inj (hnumber.symm.trans hending))
  exact ⟨c, List.getElem_mem hlt, hholder, by simp [hphases]⟩

-- Its entry is gone exactly if it was cancelled.
theorem unregistered_iff_withdrawn (h : Owned kind labels s) (hw : Withdrawals s)
    (henabled : Enabled s.net label) : Unregistered kind s label ↔ Withdrawn kind s label := by
  refine imp_congr_right fun hfails => and_congr_right fun _ => ?_
  refine forall_congr' fun a => forall_congr' fun error => imp_congr_right fun hending => ?_
  obtain ⟨c, ha, hholder, hstarted⟩ := h.failing henabled hfails hending
  constructor
  · intro hgone
    refine (hw.registered c a ha hstarted hholder).resolve_right fun hwaits => ?_
    obtain ⟨k, hk⟩ := h.entry_of_waits ha hwaits
    exact hgone k hk
  · intro hcancelled k hk
    obtain ⟨d, hd, hhome, hmem⟩ := h.owner hk
    exact (hw.gone d a hd hcancelled).1 ⟨k, hhome, hmem⟩

-- The accepting loops, whose waits fail where that leaves nothing.
def Careful (kind : AcceptKind) (_ : List (AcceptLabel τ κ ρ)) (s : Tagged τ κ ρ)
    (label : AcceptLabel τ κ ρ) : Prop :=
  InOrder s.net label ∧ Withdrawn kind s label

-- What such failures leave: no assertion fails, a push fills the empty slot of an accept
-- that is under way, no accept sleeps beside an item unless it was cancelled, and the
-- requests are delivered.
structure Orderly (kind : AcceptKind) (labels : List (AcceptLabel τ κ ρ)) (s : Tagged τ κ ρ) :
    Prop extends Undone s where
  noFault : ∀ label, Careful kind labels s label → Enabled s.net label →
    ∃ s', (machine τ κ ρ kind).exec s label = .ok s'
  served : ∀ k item c, s.net.moved (.push k item) = some (k, c, item) →
    ∃ a ∈ s.accepts c, a ∉ s.failed ∧ (s.entries k).getLast? = some a ∧
      (s.net.ports c).holder = none
  woken : ∀ (k : κ) (c : ρ) (i : ℕ), s.net.home c = some k →
    (s.net.ports c).accepts[i]? = some (.waiting false) → (s.net.ports c).holder = none ∧
      ((s.net.queues k).items = [] ∨ ∃ a ∈ s.accepts c, a ∈ s.cancelled)
  connections : kind = .connection → s.failed = []
  delivers : kind = .request → Delivers labels s.net

structure Tracked (kind : AcceptKind) (labels : List (AcceptLabel τ κ ρ)) (s : Tagged τ κ ρ) :
    Prop extends Owned kind labels s where
  withdrawals : Withdrawals s
  undone : Undone s
  connections : kind = .connection → s.failed = []

theorem Tracked.exec (h : Tracked kind labels s) (hallow : Careful kind labels s label)
    (henabled : Enabled s.net label) :
    ∃ s', (machine τ κ ρ kind).exec s label = .ok s' ∧ Tracked kind (labels ++ [label]) s' := by
  have hgone := (unregistered_iff_withdrawn h.toOwned h.withdrawals henabled).mpr hallow.2
  obtain ⟨s', hx, howned⟩ := h.toOwned.exec hallow.1 hgone henabled
  refine ⟨s', hx, howned, ?_, exec_undone h.numbered h.undone hgone henabled hx, ?_⟩
  · obtain ⟨net, hnet, rfl⟩ := exec_ok hx
    exact exec_withdrawals h.toOwned h.withdrawals hallow.1 henabled hnet
  · intro hkind
    obtain ⟨net, -, rfl⟩ := exec_ok hx
    have hfails : s.failsEmpty label = false := by
      by_contra hfails
      have hrequest := (hallow.2 (by simpa using hfails)).1
      exact absurd (hkind.symm.trans hrequest) (by simp)
    simp [advance, hfails, h.connections hkind]

end FabricRpc.V2.Tagged
