import FabricRpc.V2.AcceptNet.Records

namespace FabricRpc.V2.AcceptNet

section Keyed

variable {ρ τ : Type*} [DecidableEq ρ]

theorem count_keyed [DecidableEq τ] (pairs : List (ρ × τ)) (c : ρ) (item : τ) :
    ((pairs.filter (·.1 = c)).map Prod.snd).count item =
      (pairs : Multiset (ρ × τ)).count (c, item) := by
  induction pairs with
  | nil => rfl
  | cons pair pairs ih =>
      obtain ⟨d, x⟩ := pair
      by_cases hd : d = c
      · subst hd
        by_cases hx : x = item
        · subst hx
          rw [← Multiset.cons_coe, Multiset.count_cons_self, ← ih]
          simp
        · have hne : (d, item) ≠ (d, x) := by simp [Ne.symm hx]
          rw [← Multiset.cons_coe, Multiset.count_cons_of_ne hne, ← ih]
          simp [hx]
      · have hne : (c, item) ≠ (d, x) := by simp [Ne.symm hd]
        rw [← Multiset.cons_coe, Multiset.count_cons_of_ne hne, ← ih]
        simp [hd]

-- What is a part of another list under every key is a part of it.
theorem keyed_le {pairs more : List (ρ × τ)}
    (h : ∀ c, ((pairs.filter (·.1 = c)).map Prod.snd).Sublist
      ((more.filter (·.1 = c)).map Prod.snd)) :
    (pairs : Multiset (ρ × τ)) ≤ more := by
  let := Classical.decEq τ
  rw [Multiset.le_iff_count]
  rintro ⟨c, item⟩
  rw [← count_keyed, ← count_keyed]
  exact (h c).count_le item

end Keyed

variable {τ κ ρ : Type*} [DecidableEq κ] [DecidableEq ρ] {net net' : AcceptNet τ κ ρ}
  {label : AcceptLabel τ κ ρ}

-- The requests of a queue that were handed over, and on which connection.
def handedFrom (net : AcceptNet τ κ ρ) (k : κ) : List (ρ × τ) :=
  (net.handed.filter (net.home ·.1 = some k)).filterMap fun h => h.2.item.map (h.1, ·)

-- The requests of a queue handed over to one connection.
theorem handedFrom_keyed (net : AcceptNet τ κ ρ) (k : κ) (c : ρ) :
    ((net.handedFrom k).filter (·.1 = c)).map Prod.snd =
      if net.home c = some k then net.itemsHandedTo c else [] := by
  rw [handedFrom, itemsHandedTo, handedTo]
  induction net.handed with
  | nil => simp
  | cons h handed ih =>
      obtain ⟨d, error, item⟩ := h
      by_cases hdc : d = c
      · subst hdc
        by_cases hhome : net.home d = some k
        · simp only [hhome, if_true] at ih ⊢
          cases item <;> simp [hhome, ih]
        · simp only [hhome, if_false] at ih ⊢
          simpa [hhome] using ih
      · by_cases hhome : net.home d = some k
        · cases item <;> simp [hhome, hdc, ih]
        · simp [hhome, hdc, ih]

-- What a step does to the account of one object: it moves an item to it, it
-- leaves what was handed over and held as it is, or it opens the account.
inductive Account (net net' : AcceptNet τ κ ρ) (label : AcceptLabel τ κ ρ) (k : κ) (c : ρ) : Prop
  | moves (item : τ) (hhome : net.home c = some k) (hmoved : net.moved label = some (k, c, item))
      (hwritten : net'.writtenTo k c = net.writtenTo k c ++ [item])
      (hhanded : net'.itemsHandedTo c = net.itemsHandedTo c)
      (hholder : (net'.ports c).holder = some item)
  | keeps (hhome : net.home c = some k) (hwritten : net'.writtenTo k c = net.writtenTo k c)
      (hheld : net'.itemsHandedTo c ++ (net'.ports c).holder.toList =
        net.itemsHandedTo c ++ (net.ports c).holder.toList)
  | opens (hwritten : net'.writtenTo k c = []) (hhanded : net'.itemsHandedTo c = [])
      (hholder : (net'.ports c).holder = none)

omit [DecidableEq κ] in
theorem writtenTo_eq (net : AcceptNet τ κ ρ) (k : κ) (c : ρ) :
    net.writtenTo k c = ((net.movedFrom k).filter (·.1 = c)).map Prod.snd := rfl

omit [DecidableEq κ] in
theorem itemsHandedTo_congr (hhanded : net'.handed = net.handed) (c : ρ) :
    net'.itemsHandedTo c = net.itemsHandedTo c := by
  rw [itemsHandedTo, itemsHandedTo, handedTo, handedTo, hhanded]

theorem Effect.account (he : Effect net net' label) (hr : Recorded net) {k : κ} {c : ρ}
    (hc : net'.home c = some k) : Account net net' label k c := by
  cases he with
  | moves l d item hmoved hhome hhomes hfrom hholders hhanded =>
      rw [hhomes] at hc
      by_cases hcd : c = d
      · subst hcd
        obtain rfl : l = k := Option.some.inj (hhome.symm.trans hc)
        refine .moves item hc hmoved ?_ (itemsHandedTo_congr hhanded c) (by simp [hholders])
        simp [writtenTo_eq, hfrom]
      · refine .keeps hc ?_ ?_
        · by_cases hl : k = l
          · subst hl
            simp [writtenTo_eq, hfrom, Ne.symm hcd]
          · simp [writtenTo_eq, hfrom, hl]
        · rw [itemsHandedTo_congr hhanded, hholders, if_neg hcd]
  | completes d i error hlabel hhome hhomes hfrom hholders hhanded =>
      rw [hhomes] at hc
      refine .keeps hc (by rw [writtenTo_eq, hfrom, writtenTo_eq]) ?_
      rw [hholders]
      by_cases hcd : c = d
      · subst hcd
        cases hholder : (net.ports c).holder <;>
          simp [itemsHandedTo, handedTo, hhanded, hholder]
      · simp [itemsHandedTo, handedTo, hhanded, hcd, Ne.symm hcd]
  | attaches d l hlabel hhome hhomes hfrom hports hhanded =>
      by_cases hcd : c = d
      · subst hcd
        obtain ⟨hport, hidle⟩ := hr.unattached c hhome
        refine .opens ?_ ?_ (by simp [hports, hport, Port.new])
        · rw [writtenTo_eq, hfrom, List.map_eq_nil_iff, List.filter_eq_nil_iff]
          intro w hw hwc
          have hwhome := hr.homes k w hw
          rw [decide_eq_true_eq] at hwc
          simp [hwc, hhome] at hwhome
        · rw [itemsHandedTo_congr hhanded, itemsHandedTo, hidle]
          rfl
      · rw [hhomes, Function.update_of_ne hcd] at hc
        refine .keeps hc (by rw [writtenTo_eq, hfrom, writtenTo_eq]) ?_
        rw [itemsHandedTo_congr hhanded, hports]
  | keeps hmoved hhomes hfrom hholders hhanded hcomplete =>
      rw [hhomes] at hc
      refine .keeps hc (by rw [writtenTo_eq, hfrom, writtenTo_eq]) ?_
      rw [itemsHandedTo_congr hhanded, hholders]

-- What an object handed over and what its holder has was all moved to it, one
-- after the other. In between, items may have been overwritten.
def HandsOn (net : AcceptNet τ κ ρ) : Prop :=
  ∀ k c, net.home c = some k →
    (net.itemsHandedTo c ++ (net.ports c).holder.toList).Sublist (net.writtenTo k c)

theorem HandsOn.handedFrom_le (h : HandsOn net) (k : κ) :
    (net.handedFrom k : Multiset (ρ × τ)) ≤ net.movedFrom k := by
  apply keyed_le
  intro c
  rw [handedFrom_keyed]
  split
  · rename_i hhome
    exact (List.sublist_append_left _ _).trans (h k c hhome)
  · exact List.nil_sublist _

-- No item is handed over twice.
theorem HandsOn.handed_le_pushes (h : HandsOn net) (k : κ) :
    ((net.handedFrom k).map Prod.snd : Multiset τ) ≤ ItemQueue.pushes (net.calls k) := by
  obtain ⟨finished, haccounts⟩ := ItemQueue.run_accounts (net.calls k)
  have hmap := Multiset.map_le_map (f := Prod.snd) (h.handedFrom_le k)
  rw [Multiset.map_coe, Multiset.map_coe] at hmap
  rw [haccounts.items]
  exact hmap.trans (Multiset.le_add_left _ _)

theorem Effect.handsOn (he : Effect net net' label) (hr : Recorded net) (h : HandsOn net) :
    HandsOn net' := by
  intro k c hc
  cases he.account hr hc with
  | moves item hhome hmoved hwritten hhanded hholder =>
      rw [hwritten, hhanded, hholder]
      exact ((List.sublist_append_left _ _).trans (h k c hhome)).append (List.Sublist.refl [item])
  | keeps hhome hwritten hheld =>
      rw [hwritten, hheld]
      exact h k c hhome
  | opens hwritten hhanded hholder =>
      rw [hwritten, hhanded, hholder]
      exact List.Sublist.refl []

-- The requests that server connections hand over, in any run.
theorem run_handsOn
    {allow : List (AcceptLabel τ κ ρ) → AcceptNet τ κ ρ → AcceptLabel τ κ ρ → Prop}
    {home : ρ → Option κ} {labels : List (AcceptLabel τ κ ρ)}
    (hrun : (machine τ κ ρ .request).Run allow (new home) labels net) :
    Recorded net ∧ HandsOn net := by
  apply hrun.state_invariant fun net => Recorded net ∧ HandsOn net
  · exact ⟨new_recorded home, fun _ _ _ => List.Sublist.refl []⟩
  · rintro labels net label net' ⟨hr, h⟩ - henabled hx
    exact ⟨exec_recorded hr henabled hx, (exec_effect hr henabled hx).handsOn hr h⟩

end FabricRpc.V2.AcceptNet
