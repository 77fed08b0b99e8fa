import FabricRpc.V2.AcceptNet.Once

namespace FabricRpc.V2.AcceptNet

variable {τ κ ρ : Type*} [DecidableEq κ] [DecidableEq ρ] {net net' : AcceptNet τ κ ρ}
  {label : AcceptLabel τ κ ρ} {labels : List (AcceptLabel τ κ ρ)}

-- An accept that completes without error hands over a request.
def NonNull (net : AcceptNet τ κ ρ) : Prop := ∀ h ∈ net.handed, h.2.error = false → h.2.item.isSome

-- No request was overwritten: those moved to the holder of a connection were
-- handed over by its accepts, in order, or the holder still has them.
def Kept (net : AcceptNet τ κ ρ) : Prop :=
  ∀ k c, net.home c = some k →
    net.writtenTo k c = net.itemsHandedTo c ++ (net.ports c).holder.toList

-- What overlapping accepts should do with the requests: each one pushed is
-- stored or was moved to a connection, none is overwritten there, and none is
-- handed over twice, on whichever connections.
structure Delivers (labels : List (AcceptLabel τ κ ρ)) (net : AcceptNet τ κ ρ) : Prop where
  nonNull : NonNull net
  stored : ∀ k, (pushedTo k labels : Multiset τ) =
    (net.queues k).items + ((net.movedFrom k).map Prod.snd : Multiset τ)
  kept : Kept net
  once : ∀ k, ((net.handedFrom k).map Prod.snd : Multiset τ) ≤ pushedTo k labels

-- The surroundings stop before a step after which requests are lost.
def StaysDelivering (labels : List (AcceptLabel τ κ ρ)) (net : AcceptNet τ κ ρ)
    (label : AcceptLabel τ κ ρ) : Prop :=
  ∀ net', exec .request net label = .ok net' → Delivers (labels ++ [label]) net'

-- Moves and completions take turns on every connection: a push that finds an
-- accept registered, and a pop that finds a request stored, come while the
-- holder is empty, and an accept completes without error while it is full.
def InTurn (_ : List (AcceptLabel τ κ ρ)) (net : AcceptNet τ κ ρ)
    (label : AcceptLabel τ κ ρ) : Prop :=
  (∀ k c item, net.moved label = some (k, c, item) → (net.ports c).holder = none) ∧
    ∀ c i, label = .complete c i false → (net.ports c).holder.isSome

theorem Effect.nonNull_iff (he : Effect net net' label) (h : NonNull net) :
    NonNull net' ↔ ∀ c i, label = .complete c i false → (net.ports c).holder.isSome := by
  have hsame (hhanded : net'.handed = net.handed) (hnot : ∀ c i, label ≠ .complete c i false) :
      NonNull net' ↔ ∀ c i, label = .complete c i false → (net.ports c).holder.isSome := by
    have hkept : NonNull net' := by
      rw [NonNull, hhanded]
      exact h
    exact iff_of_true hkept fun c i hlabel => absurd hlabel (hnot c i)
  cases he with
  | moves k c item hmoved hhome hhomes hfrom hholders hhanded =>
      apply hsame hhanded
      rintro d i rfl
      simp [moved] at hmoved
  | attaches c k hlabel hhome hhomes hfrom hports hhanded =>
      apply hsame hhanded
      simp [hlabel]
  | keeps hmoved hhomes hfrom hholders hhanded hcomplete =>
      exact hsame hhanded fun c i => hcomplete c i false
  | completes c i error hlabel hhome hhomes hfrom hholders hhanded =>
      subst hlabel
      rw [NonNull, hhanded]
      constructor
      · intro hnext d j hlabel
        obtain ⟨rfl, rfl, rfl⟩ := AcceptLabel.complete.inj hlabel
        exact hnext (c, ⟨false, (net.ports c).holder⟩) (by simp) rfl
      · intro hfull handed hmem herror
        rw [List.mem_append, List.mem_singleton] at hmem
        rcases hmem with hmem | rfl
        · exact h handed hmem herror
        · simp only at herror
          subst herror
          exact hfull c i rfl

-- Where an item is moved to, its step opens no account and keeps none.
theorem Effect.of_moved (he : Effect net net' label) {k : κ} {c : ρ} {item : τ}
    (hmoved : net.moved label = some (k, c, item)) :
    net.home c = some k ∧ net'.home c = some k ∧
      net'.writtenTo k c = net.writtenTo k c ++ [item] ∧
      net'.itemsHandedTo c = net.itemsHandedTo c ∧ (net'.ports c).holder = some item := by
  cases he with
  | moves l d other hother hhome hhomes hfrom hholders hhanded =>
      obtain ⟨rfl, rfl, rfl⟩ : l = k ∧ d = c ∧ other = item := by
        rw [hmoved] at hother
        simpa [eq_comm] using hother
      refine ⟨hhome, by rw [hhomes, hhome], ?_, itemsHandedTo_congr hhanded d, by simp [hholders]⟩
      simp [writtenTo_eq, hfrom]
  | completes d i error hlabel => simp [hlabel, moved] at hmoved
  | attaches d l hlabel => simp [hlabel, moved] at hmoved
  | keeps hnone => simp [hnone] at hmoved

-- A step overwrites nothing exactly if it moves an item only to an empty holder.
theorem Effect.kept_iff (he : Effect net net' label) (hr : Recorded net) (h : Kept net) :
    Kept net' ↔
      ∀ k c item, net.moved label = some (k, c, item) → (net.ports c).holder = none := by
  constructor
  · intro hnext k c item hmoved
    obtain ⟨hhome, hhome', hwritten, hhanded, hholder⟩ := he.of_moved hmoved
    have hsplit := hnext k c hhome'
    rw [hwritten, h k c hhome, hhanded, hholder, List.append_assoc] at hsplit
    have hlength := congrArg List.length hsplit
    simp only [List.length_append, Option.length_toList, Option.isSome_some] at hlength
    cases hold : (net.ports c).holder with
    | none => rfl
    | some old => simp [hold] at hlength
  · intro hempty k c hc
    cases he.account hr hc with
    | moves item hhome hmoved hwritten hhanded hholder =>
        rw [hwritten, hhanded, hholder, h k c hhome, hempty k c item hmoved]
        simp
    | keeps hhome hwritten hheld => rw [hwritten, hheld, h k c hhome]
    | opens hwritten hhanded hholder =>
        rw [hwritten, hhanded, hholder]
        rfl

omit [DecidableEq κ] in
theorem Kept.handsOn (h : Kept net) : HandsOn net := by
  intro k c hc
  rw [h k c hc]

-- The parts of the invariant that tell where every request is.
structure Delivering (labels : List (AcceptLabel τ κ ρ)) (net : AcceptNet τ κ ρ) : Prop
  extends Recorded net where
  pushed : ∀ k, ItemQueue.pushes (net.calls k) = pushedTo k labels
  nonNull : NonNull net
  kept : Kept net

theorem Delivering.delivers (h : Delivering labels net) : Delivers labels net := by
  have hstored (k : κ) : (pushedTo k labels : Multiset τ) =
      (net.queues k).items + ((net.movedFrom k).map Prod.snd : Multiset τ) := by
    obtain ⟨finished, haccounts⟩ := ItemQueue.run_accounts (net.calls k)
    rw [← h.pushed, haccounts.items, h.queues]
    rfl
  refine ⟨h.nonNull, hstored, h.kept, ?_⟩
  intro k
  rw [← h.pushed]
  exact h.kept.handsOn.handed_le_pushes k

theorem new_delivering (home : ρ → Option κ) :
    Delivering [] (new home : AcceptNet τ κ ρ) where
  toRecorded := new_recorded home
  pushed := fun _ => rfl
  nonNull := fun _ h => absurd h List.not_mem_nil
  kept := fun _ _ _ => rfl

theorem exec_delivering (h : Delivering labels net) (hallow : InTurn labels net label)
    (henabled : Enabled net label) (hx : exec .request net label = .ok net') :
    Delivering (labels ++ [label]) net' where
  toRecorded := exec_recorded h.toRecorded henabled hx
  pushed := by
    intro k
    rw [exec_pushes hx, h.pushed, pushedTo, pushedTo, pushedTo, List.filterMap_append]
  nonNull := ((exec_effect h.toRecorded henabled hx).nonNull_iff h.nonNull).mpr hallow.2
  kept := ((exec_effect h.toRecorded henabled hx).kept_iff h.toRecorded h.kept).mpr hallow.1

-- A step keeps the requests exactly if it is in turn.
theorem staysDelivering_iff_inTurn (h : Delivering labels net) (henabled : Enabled net label)
    (hx : exec .request net label = .ok net') :
    StaysDelivering labels net label ↔ InTurn labels net label := by
  have heffect := exec_effect h.toRecorded henabled hx
  constructor
  · intro hstays
    have hnext := hstays net' hx
    exact ⟨(heffect.kept_iff h.toRecorded h.kept).mp hnext.kept,
      (heffect.nonNull_iff h.nonNull).mp hnext.nonNull⟩
  · intro hallow next hnext
    obtain rfl : net' = next := Except.ok.inj (hx.symm.trans hnext)
    exact (exec_delivering h hallow henabled hx).delivers

-- However the accepts of server connections overlap, no request is stolen or
-- lost in exactly those runs in which moves and completions take turns.
theorem overlapping_accepts_deliver_iff_in_turn {home : ρ → Option κ} :
    (machine τ κ ρ .request).Run StaysDelivering (new home) labels net ↔
      (machine τ κ ρ .request).Run InTurn (new home) labels net := by
  apply Lib.Machine.Run.congr Delivering (new_delivering home)
  · exact fun labels net label net' h hallow henabled hx => exec_delivering h hallow henabled hx
  · exact fun labels net label net' h henabled hx => staysDelivering_iff_inTurn h henabled hx

-- Two accepts wait on one connection, and two requests arrive before either
-- handler runs. The second overwrites the first, and one handler gets null.
theorem overlapping_accepts_lose_a_request :
    ∃ net : AcceptNet ℕ ℕ ℕ,
      (machine ℕ ℕ ℕ .request).Run Lib.Machine.anything (new fun _ => none)
        [.attach 0 0, .start 0, .pop 0 0, .wait 0 0, .start 0, .pop 0 1, .wait 0 1,
          .push 0 7, .push 0 8, .complete 0 0 false, .complete 0 0 false] net ∧
      net.handedTo 0 = [⟨false, some 8⟩, ⟨false, none⟩] ∧ ¬NonNull net ∧ ¬Kept net := by
  have hpushed : (machine ℕ ℕ ℕ .request).Run Lib.Machine.anything (new fun _ => none)
      [.attach 0 0, .start 0, .pop 0 0, .wait 0 0, .start 0, .pop 0 1, .wait 0 1,
        .push 0 7, .push 0 8] _ :=
    .snoc (.snoc (.snoc (.snoc (.snoc (.snoc (.snoc (.snoc (.snoc .nil
      trivial trivial rfl) trivial trivial rfl) trivial rfl rfl) trivial rfl rfl)
      trivial trivial rfl) trivial rfl rfl) trivial rfl rfl) trivial trivial rfl)
      trivial trivial rfl
  have hfirst : (machine ℕ ℕ ℕ .request).Run Lib.Machine.anything (new fun _ => none)
      (_ ++ [.complete 0 0 false]) _ := hpushed.snoc trivial ⟨true, rfl, fun _ => rfl⟩ rfl
  have hrun : (machine ℕ ℕ ℕ .request).Run Lib.Machine.anything (new fun _ => none)
      (_ ++ [.complete 0 0 false]) _ := hfirst.snoc trivial ⟨true, rfl, fun _ => rfl⟩ rfl
  refine ⟨_, hrun, rfl, ?_, ?_⟩
  · intro hnonNull
    exact absurd (hnonNull (0, ⟨false, none⟩) (List.mem_of_mem_tail (.head _)) rfl) (by simp)
  · intro hkept
    exact absurd (hkept 0 0 rfl) (by decide)

end FabricRpc.V2.AcceptNet
