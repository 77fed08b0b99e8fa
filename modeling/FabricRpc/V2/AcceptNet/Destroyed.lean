import FabricRpc.V2.AcceptNet.Records
import FabricRpc.V2.ItemQueue.Cancel

namespace FabricRpc.V2.AcceptNet

variable {τ κ ρ : Type*} [DecidableEq κ] [DecidableEq ρ] {kind : AcceptKind}
  {net net' : AcceptNet τ κ ρ} {labels : List (AcceptLabel τ κ ρ)} {label : AcceptLabel τ κ ρ}

-- No queue refers to an object that is destroyed, which cancels its event, and
-- no push delivers into it.
structure Forgotten (labels : List (AcceptLabel τ κ ρ)) (net : AcceptNet τ κ ρ) : Prop where
  entries : ∀ c, .cancel c ∈ labels → ∀ k, ∀ e ∈ (net.queues k).queueEntries,
    e.event ≠ c ∧ e.item ≠ c
  pushes : ∀ c, .cancel c ∈ labels → ∀ k item from' x,
    net.moved (.push k item) ≠ some (from', c, x)

-- What must hold before a step. An object is destroyed while none of its waiters
-- stands below the tail of its queue. An accept that it has left behind does not
-- register any more.
def Removable (labels : List (AcceptLabel τ κ ρ)) (net : AcceptNet τ κ ρ) :
    AcceptLabel τ κ ρ → Prop
  | .cancel c => ∀ k, net.home c = some k → (net.queues k).TailOnly c
  | .pop c _ => .cancel c ∈ labels → ∀ k, net.home c = some k → (net.queues k).items ≠ []
  | _ => True

-- The step leaves no queue that refers to a destroyed object.
def ForgetsDestroyed (kind : AcceptKind) (labels : List (AcceptLabel τ κ ρ))
    (net : AcceptNet τ κ ρ) (label : AcceptLabel τ κ ρ) : Prop :=
  ∀ net', exec kind net label = .ok net' → Forgotten (labels ++ [label]) net'

-- A push delivers to the waiter at the tail, so the waiters decide.
omit [DecidableEq κ] in
theorem forgotten_iff (hr : Recorded net) :
    Forgotten labels net ↔ ∀ c, .cancel c ∈ labels → ∀ k, c ∉ net.waiters k := by
  constructor
  · intro h c hc k hmem
    obtain ⟨e, he, hitem⟩ := List.mem_map.mp hmem
    exact (h.entries c hc k e he).2 hitem
  · intro h
    refine ⟨?_, ?_⟩
    · intro c hc k e he
      have hitem : e.item ≠ c := fun hitem => h c hc k (hitem ▸ List.mem_map_of_mem he)
      exact ⟨fun hevent => hitem ((hr.entries k e he).1 ▸ hevent), hitem⟩
    · intro c hc k item from' x hmoved
      obtain ⟨e, hlast, heq⟩ := Option.map_eq_some_iff.mp hmoved
      obtain rfl : e.item = c := (Prod.mk.inj (Prod.mk.inj heq).2).1
      exact h e.item hc k (List.mem_map_of_mem (List.mem_of_getLast? hlast))

theorem forgotten_of_same (hr : Recorded net) (hr' : Recorded net') (h : Forgotten labels net)
    (hx : exec kind net label = .ok net') (hpop : ∀ c i, label ≠ .pop c i)
    (hcancel : ∀ c, label ≠ .cancel c) : Forgotten (labels ++ [label]) net' := by
  rw [forgotten_iff hr']
  intro c hc k hmem
  have hold : .cancel c ∈ labels := by
    rcases List.mem_append.mp hc with hc | hc
    · exact hc
    · exact absurd (List.mem_singleton.mp hc).symm (hcancel c)
  exact (forgotten_iff hr).mp h c hold k (waiters_of_not_pop hx hpop hmem)

theorem cancel_own_queue {c : ρ} {k : κ} (hhome : net.home c = some k) :
    (net.cancel c).queues k = (net.queues k).cancel c := by
  simp [cancel, hhome]

-- A destroyed object is forgotten exactly if its only waiter is at the tail.
theorem cancel_forgotten_iff {c : ρ} (hr : Recorded net) (hr' : Recorded (net.cancel c))
    (h : Forgotten labels net) : Forgotten (labels ++ [.cancel c]) (net.cancel c) ↔
      ∀ k, net.home c = some k → (net.queues k).TailOnly c := by
  have hkept (d : ρ) (k : κ) (hmem : d ∈ (net.cancel c).waiters k) : d ∈ net.waiters k :=
    waiters_of_not_pop (show exec .request net (.cancel c) = .ok (net.cancel c) from rfl)
      (by simp) hmem
  rw [forgotten_iff hr']
  constructor
  · intro hnext k hhome e he hevent
    obtain ⟨hsame, -⟩ := hr.entries k e (List.dropLast_subset _ he)
    apply hnext c (List.mem_append_right _ (List.mem_singleton_self _)) k
    rw [waiters, cancel_own_queue hhome, ← hevent, hsame]
    exact List.mem_map_of_mem (ItemQueue.mem_cancel_of_dropLast he)
  · intro htail d hd k hmem
    rcases List.mem_append.mp hd with hd | hd
    · exact (forgotten_iff hr).mp h d hd k (hkept d k hmem)
    · obtain rfl := AcceptLabel.cancel.inj (List.mem_singleton.mp hd)
      obtain ⟨e, he, hitem⟩ := List.mem_map.mp hmem
      obtain ⟨old, hold, holditem⟩ := List.mem_map.mp (hkept d k hmem)
      have hhome : net.home d = some k := holditem ▸ (hr.entries k old hold).2
      rw [cancel_own_queue hhome, (ItemQueue.removes_iff_tailOnly _ _).mpr (htail k hhome),
        List.mem_filter] at he
      have hevent : e.event = d := (hr.entries k e he.1).1.trans hitem
      exact absurd hevent (of_decide_eq_true he.2)

theorem pop_forgotten_iff {c : ρ} {i : ℕ} (hr : Recorded net) (hr' : Recorded net')
    (h : Forgotten labels net) (hx : net.pop c i = .ok net') :
    Forgotten (labels ++ [.pop c i]) net' ↔
      (.cancel c ∈ labels → ∀ k, net.home c = some k → (net.queues k).items ≠ []) := by
  obtain ⟨l, hhome, -⟩ := pop_ok hx
  have hqueue (k : κ) : net'.queues k = (net.called k (.pop c i)).foldl ItemQueue.call
      (net.queues k) :=
    exec_queues (show exec .request net (.pop c i) = .ok net' from hx) k
  have hdestroyed (d : ρ) (hd : .cancel d ∈ labels ++ [AcceptLabel.pop c i]) :
      AcceptLabel.cancel d ∈ labels := by simpa using hd
  rw [forgotten_iff hr']
  constructor
  · intro hnext hc k hk hnil
    apply hnext c (List.mem_append_left _ hc) k
    have hpop := ItemQueue.asyncPop_of_nil hnil c c
    rw [waiters, hqueue]
    simp [called, hk, ItemQueue.call, hpop]
  · intro hitems d hd k hmem
    have hold := (forgotten_iff hr).mp h d (hdestroyed d hd) k
    rw [waiters, hqueue] at hmem
    by_cases hk : net.home c = some k
    · simp only [called, hk, if_true, List.foldl_cons, List.foldl_nil, ItemQueue.call] at hmem
      rcases ItemQueue.asyncPop_cases (net.queues k) c c with ⟨hnil, hp⟩ | ⟨items, item, -, hp⟩
      · rw [hp, List.map_append, List.mem_append] at hmem
        rcases hmem with hmem | hmem
        · exact hold hmem
        · obtain rfl : d = c := List.mem_singleton.mp hmem
          exact hitems (hdestroyed d hd) k hk hnil
      · rw [hp] at hmem
        exact hold hmem
    · simp only [called, hk, if_false, List.foldl_nil] at hmem
      exact hold hmem

-- A step leaves no destroyed object in a queue exactly if what must hold before
-- it does.
theorem exec_forgotten_iff (hr : Recorded net) (h : Forgotten labels net)
    (henabled : Enabled net label) (hx : exec kind net label = .ok net') :
    Forgotten (labels ++ [label]) net' ↔ Removable labels net label := by
  have hr' := exec_recorded hr henabled hx
  cases label with
  | pop c i => exact pop_forgotten_iff hr hr' h hx
  | cancel c =>
      obtain rfl : net.cancel c = net' := Except.ok.inj hx
      exact cancel_forgotten_iff hr hr' h
  | attach c k => exact iff_of_true (forgotten_of_same hr hr' h hx (by simp) (by simp)) trivial
  | push k item => exact iff_of_true (forgotten_of_same hr hr' h hx (by simp) (by simp)) trivial
  | start c => exact iff_of_true (forgotten_of_same hr hr' h hx (by simp) (by simp)) trivial
  | wait c i => exact iff_of_true (forgotten_of_same hr hr' h hx (by simp) (by simp)) trivial
  | complete c i error =>
      exact iff_of_true (forgotten_of_same hr hr' h hx (by simp) (by simp)) trivial

section Runs

variable {home : ρ → Option κ}

omit [DecidableEq κ] [DecidableEq ρ] in
theorem new_forgotten (home : ρ → Option κ) :
    Forgotten ([] : List (AcceptLabel τ κ ρ)) (new home) where
  entries := fun _ hc => absurd hc List.not_mem_nil
  pushes := fun _ hc => absurd hc List.not_mem_nil

theorem exec_removed (h : Recorded net ∧ Forgotten labels net) (hallow : Removable labels net label)
    (henabled : Enabled net label) (hx : exec kind net label = .ok net') :
    Recorded net' ∧ Forgotten (labels ++ [label]) net' :=
  ⟨exec_recorded h.1 henabled hx, (exec_forgotten_iff h.1 h.2 henabled hx).mpr hallow⟩

-- In every run with such steps, destroyed objects are forgotten.
theorem run_forgotten (hrun : (machine τ κ ρ kind).Run Removable (new home) labels net) :
    Forgotten labels net := by
  have hinv := hrun.invariant (fun labels net => Recorded net ∧ Forgotten labels net)
    ⟨new_recorded home, new_forgotten home⟩
    (fun _ _ _ _ h hallow henabled hx => exec_removed h hallow henabled hx)
  exact hinv.2

-- In any state a cancel does what it is there for exactly if the event has no
-- waiter below the tail, and the runs that leave no waiter of a destroyed object
-- are exactly those in which every object is destroyed in such a state.
theorem cancel_removes_iff_tail_only (kind : AcceptKind) (home : ρ → Option κ) :
    (∀ (q : ItemQueue τ ρ ρ) (event : ρ), q.Removes event ↔ q.TailOnly event) ∧
    ∀ (labels : List (AcceptLabel τ κ ρ)) (net : AcceptNet τ κ ρ),
      (machine τ κ ρ kind).Run (ForgetsDestroyed kind) (new home) labels net ↔
        (machine τ κ ρ kind).Run Removable (new home) labels net := by
  refine ⟨ItemQueue.removes_iff_tailOnly, fun labels net => ?_⟩
  apply Lib.Machine.Run.congr fun labels net => Recorded net ∧ Forgotten labels net
  · exact ⟨new_recorded home, new_forgotten home⟩
  · exact fun _ _ _ _ h hallow henabled hx => exec_removed h hallow henabled hx
  · rintro labels net label net' ⟨hr, h⟩ henabled hx
    rw [← exec_forgotten_iff hr h henabled hx]
    constructor
    · exact fun hforgets => hforgets net' hx
    · intro hnext next hnextx
      obtain rfl : net' = next := Except.ok.inj (hx.symm.trans hnextx)
      exact hnext

end Runs

-- Two accepts wait on one connection when it is destroyed. One entry is removed,
-- and the next push delivers to the other.
theorem destroyed_connection_stays_registered :
    (∃ q : ItemQueue ℕ ℕ ℕ, q = (ItemQueue.run [.asyncPop 7 0, .asyncPop 7 0]).queue ∧
      ¬q.Removes 7) ∧
    ∃ (labels : List (AcceptLabel ℕ Unit ℕ)) (net : AcceptNet ℕ Unit ℕ),
      (machine ℕ Unit ℕ .request).Run Lib.Machine.anything (new fun _ => some ())
        (labels ++ [.cancel 0]) net ∧
      (net.queues ()).queueEntries = [⟨0, 0⟩] ∧
      net.moved (.push () 5) = some ((), 0, 5) ∧ ¬Forgotten (labels ++ [.cancel 0]) net := by
  constructor
  · refine ⟨_, rfl, ?_⟩
    rw [ItemQueue.removes_iff_tailOnly]
    exact fun htail => htail ⟨7, 0⟩ (by decide) rfl
  · have hrun : (machine ℕ Unit ℕ .request).Run Lib.Machine.anything (new fun _ => some ()) []
        (new fun _ => some ()) := .nil
    replace hrun : (machine ℕ Unit ℕ .request).Run Lib.Machine.anything _ (_ ++ [.start 0]) _ :=
      hrun.snoc trivial trivial rfl
    replace hrun : (machine ℕ Unit ℕ .request).Run Lib.Machine.anything _ (_ ++ [.pop 0 0]) _ :=
      hrun.snoc trivial rfl rfl
    replace hrun : (machine ℕ Unit ℕ .request).Run Lib.Machine.anything _ (_ ++ [.start 0]) _ :=
      hrun.snoc trivial trivial rfl
    replace hrun : (machine ℕ Unit ℕ .request).Run Lib.Machine.anything _ (_ ++ [.pop 0 1]) _ :=
      hrun.snoc trivial rfl rfl
    replace hrun : (machine ℕ Unit ℕ .request).Run Lib.Machine.anything _ (_ ++ [.cancel 0]) _ :=
      hrun.snoc trivial trivial rfl
    refine ⟨_, _, hrun, rfl, rfl, ?_⟩
    intro h
    exact (h.entries 0 (by simp) () ⟨0, 0⟩ (List.mem_singleton_self _)).1 rfl

end FabricRpc.V2.AcceptNet
