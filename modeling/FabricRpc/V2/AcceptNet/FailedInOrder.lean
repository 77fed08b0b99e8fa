import FabricRpc.V2.AcceptNet.FailedWait
import FabricRpc.V2.AcceptNet.InTime

namespace FabricRpc.V2.Tagged

open AcceptNet (Enabled InOrder InTime Delivering)

variable {τ κ ρ : Type*} [DecidableEq κ] [DecidableEq ρ] {kind : AcceptKind}
  {s s' : Tagged τ κ ρ} {label : AcceptLabel τ κ ρ} {labels : List (AcceptLabel τ κ ρ)}

-- Each queue entry has the number of an accept under way on its object.
structure Owned (kind : AcceptKind) (labels : List (AcceptLabel τ κ ρ)) (s : Tagged τ κ ρ) :
    Prop where
  numbered : Numbered s
  inTime : InTime kind s.net
  owners : ∀ k, List.Forall₂ (fun a e => a ∈ s.accepts e.item) (s.entries k)
    (s.net.queues k).queueEntries
  delivering : kind = .request → Delivering labels s.net

section Related

variable {α β : Type*} {r : α → β → Prop} {as : List α} {bs : List β}

theorem exists_of_forall₂ (h : List.Forall₂ r as bs) {a : α} (ha : a ∈ as) : ∃ b ∈ bs, r a b := by
  induction h with
  | nil => exact absurd ha List.not_mem_nil
  | cons hab htail ih =>
      rcases List.mem_cons.mp ha with rfl | ha
      · exact ⟨_, List.mem_cons_self, hab⟩
      · obtain ⟨b, hb, hr⟩ := ih ha
        exact ⟨b, List.mem_cons_of_mem _ hb, hr⟩

end Related

-- One accept is under way at most.
theorem Owned.eq_of_mem (h : Owned kind labels s) {c : ρ} {a b : ℕ} (ha : a ∈ s.accepts c)
    (hb : b ∈ s.accepts c) : a = b := by
  have hone := (h.inTime.ports c).one
  rw [← h.numbered.accepts] at hone
  obtain ⟨only, honly⟩ := List.length_eq_one_iff.mp
    (le_antisymm hone (List.length_pos_of_mem ha))
  rw [honly, List.mem_singleton] at ha hb
  rw [ha, hb]

-- The entry of an accept that waits.
theorem Owned.entry_of_waits (h : Owned kind labels s) {c : ρ} {a : ℕ} (ha : a ∈ s.accepts c)
    (hwaits : s.net.Waits c) : ∃ k, a ∈ s.entries k := by
  obtain ⟨k, -, hmem⟩ := hwaits
  obtain ⟨e, he, rfl⟩ := List.mem_map.mp hmem
  obtain ⟨b, hb, howner⟩ := exists_of_forall₂ (List.Forall₂.flip (h.owners k)) he
  obtain rfl := h.eq_of_mem ha howner
  exact ⟨k, hb⟩

-- The accept whose slot a failed wait left empty was the only one of its object,
-- so the object has no entry any more.
theorem Owned.quiet (h : Owned kind labels s) (hallow : Unregistered kind s label)
    (henabled : Enabled s.net label) {c : ρ} {i : ℕ} (hlabel : label = .complete c i true)
    (hholder : (s.net.ports c).holder = none) : kind = .request ∧ ¬s.net.Waits c := by
  subst hlabel
  obtain ⟨hkind, hgone⟩ := hallow (failsEmpty_iff.mpr ⟨c, i, rfl, hholder⟩)
  refine ⟨hkind, fun hwaits => ?_⟩
  obtain ⟨hlt, hending⟩ := h.numbered.ending henabled
  obtain ⟨k, hk⟩ := h.entry_of_waits (List.getElem_mem hlt) hwaits
  exact hgone _ true hending k hk

-- No step takes its number from an accept that is registered.
theorem Owned.kept (h : Owned kind labels s) (hallow : Unregistered kind s label)
    (henabled : Enabled s.net label) (net : AcceptNet τ κ ρ) {k : κ} {e : QueueEntry ρ ρ}
    (he : e ∈ (s.net.queues k).queueEntries) {a : ℕ} (ha : a ∈ s.accepts e.item) :
    a ∈ (s.advance label net).accepts e.item := by
  cases label with
  | start c =>
      by_cases hc : e.item = c
      · subst hc
        simp [advance, ha]
      · simpa [advance, hc] using ha
  | complete c i error =>
      have hwaits : ¬s.net.Waits c := by
        apply h.inTime.not_waits_of_complete _ henabled
        rintro hholder rfl
        exact h.quiet hallow henabled rfl hholder
      have hc : e.item ≠ c := by
        rintro rfl
        exact hwaits ⟨k, (h.inTime.entries k e he).2, List.mem_map.mpr ⟨e, he, rfl⟩⟩
      simpa [advance, hc] using ha
  | attach c l => exact ha
  | push l item => exact ha
  | pop c i => exact ha
  | wait c i => exact ha
  | cancel c => exact ha

theorem Owned.exec_owners (h : Owned kind labels s) (hallow : Unregistered kind s label)
    (henabled : Enabled s.net label) {net : AcceptNet τ κ ρ}
    (hx : AcceptNet.exec kind s.net label = .ok net) (k : κ) :
    List.Forall₂ (fun a e => a ∈ (s.advance label net).accepts e.item)
      ((s.advance label net).entries k) (net.queues k).queueEntries := by
  have hkept : List.Forall₂ (fun a e => a ∈ (s.advance label net).accepts e.item)
      (s.entries k) (s.net.queues k).queueEntries := by
    rw [List.forall₂_iff_zip]
    refine ⟨h.numbered.entries k, fun {a e} hzip => ?_⟩
    have howner := (List.forall₂_iff_zip.mp (h.owners k)).2 hzip
    exact h.kept hallow henabled net (List.of_mem_zip hzip).2 howner
  show List.Forall₂ _ (retag _ _ _ _) _
  rcases AcceptNet.exec_queueEntries hx k with hpre | ⟨c, i, rfl, -, hgrow⟩
  · have hle := hpre.length_le
    rw [retag, if_neg (by omega)]
    conv_rhs => rw [List.prefix_iff_eq_take.mp hpre]
    exact List.forall₂_take _ hkept
  · obtain ⟨a, ha⟩ := Option.isSome_iff_exists.mp (h.numbered.registering henabled)
    rw [hgrow, retag, if_pos (by simp), ha]
    apply List.rel_append hkept
    exact .cons (List.mem_of_getElem? ha) .nil

-- One accept at a time, whose wait fails where that leaves nothing, fails no step.
theorem Owned.exec (h : Owned kind labels s) (horder : InOrder s.net label)
    (hallow : Unregistered kind s label) (henabled : Enabled s.net label) :
    ∃ s', (machine τ κ ρ kind).exec s label = .ok s' ∧ Owned kind (labels ++ [label]) s' := by
  obtain ⟨net, hx, hnext⟩ := AcceptNet.exec_inTime h.inTime horder
    (fun c i hlabel hholder => h.quiet hallow henabled hlabel hholder) henabled
  refine ⟨_, exec_of_ok hx, ?_⟩
  refine ⟨exec_numbered h.numbered henabled (exec_of_ok hx), hnext, ?_, ?_⟩
  · exact h.exec_owners hallow henabled hx
  · rintro rfl
    exact AcceptNet.exec_delivering (h.delivering rfl) (h.inTime.inTurn labels henabled) henabled hx

-- The object of a queue entry.
theorem Owned.owner (h : Owned kind labels s) {k : κ} {a : ℕ} (ha : a ∈ s.entries k) :
    ∃ c, a ∈ s.accepts c ∧ s.net.home c = some k ∧ c ∈ s.net.waiters k := by
  obtain ⟨e, he, howner⟩ := exists_of_forall₂ (h.owners k) ha
  exact ⟨e.item, howner, (h.inTime.entries k e he).2, List.mem_map_of_mem he⟩

-- The number at the back of a queue.
theorem Owned.back (h : Owned kind labels s) {k : κ} {entries : List (QueueEntry ρ ρ)}
    {e : QueueEntry ρ ρ} (hback : (s.net.queues k).queueEntries = entries ++ [e]) :
    ∃ a ∈ s.accepts e.item, (s.entries k).getLast? = some a := by
  have howners := List.forall₂_reverse_iff.mpr (h.owners k)
  rw [hback, List.reverse_append, List.reverse_singleton, List.singleton_append,
    List.forall₂_cons_right_iff] at howners
  obtain ⟨a, tags, ha, -, hreverse⟩ := howners
  refine ⟨a, ha, ?_⟩
  rw [List.getLast?_eq_head?_reverse, hreverse, List.head?_cons]

end FabricRpc.V2.Tagged
