import FabricRpc.V2.AcceptNet
import FabricRpc.V2.ItemQueue.Conservation

namespace FabricRpc.V2.AcceptNet

open ItemQueue (Exclusive)

variable {τ κ ρ : Type*}

def waiters (net : AcceptNet τ κ ρ) (k : κ) : List ρ :=
  (net.queues k).queueEntries.map QueueEntry.item

-- The object has an entry in its own queue.
def Waits (net : AcceptNet τ κ ρ) (c : ρ) : Prop := ∃ k, net.home c = some k ∧ c ∈ net.waiters k

-- Between async_pop and the handler: the object waits, and holds nothing under
-- an event that is not set, or it was served, and holds an item under one that is.
def Settled (p : Port τ) (waits : Prop) : Prop :=
  (waits ∧ p.holder = none ∧ p.ev = false) ∨ (¬waits ∧ p.holder.isSome ∧ p.ev = true)

-- What the shared fields of an object are while it runs one accept at a time.
def Sound (kind : AcceptKind) (p : Port τ) (waits : Prop) : Prop :=
  match p.accepts with
  | [] => ¬waits ∧ (kind = .request → p.holder = none)
  | [.started] => ¬waits ∧ p.holder = none ∧ p.ev = false
  | [.popped] => Settled p waits
  | [.waiting fired] => Settled p waits ∧ fired = p.ev
  | _ => False

-- The entries of a queue are those of objects attached to it, one for each.
structure Tidy (net : AcceptNet τ κ ρ) : Prop where
  exclusive : ∀ k, Exclusive (net.queues k)
  entries : ∀ k, ∀ e ∈ (net.queues k).queueEntries, e.event = e.item ∧ net.home e.item = some k
  nodup : ∀ k, (net.waiters k).Nodup

structure Sequential (kind : AcceptKind) (net : AcceptNet τ κ ρ) : Prop extends Tidy net where
  homed : ∀ c, (net.ports c).accepts ≠ [] → (net.home c).isSome
  ports : ∀ c, Sound kind (net.ports c) (net.Waits c)

theorem waits_of_home {net : AcceptNet τ κ ρ} {c : ρ} {k : κ} (hc : net.home c = some k) :
    net.Waits c ↔ c ∈ net.waiters k := by
  simp [Waits, hc]

theorem new_sequential (kind : AcceptKind) (home : ρ → Option κ) :
    Sequential kind (new home : AcceptNet τ κ ρ) where
  exclusive := fun _ => ItemQueue.new_exclusive
  entries := fun _ _ he => absurd he (by simp [new, ItemQueue.new])
  nodup := fun _ => List.nodup_nil
  homed := fun _ h => absurd rfl h
  ports := fun _ => ⟨fun ⟨_, _, h⟩ => by simp [waiters, new, ItemQueue.new] at h, fun _ => rfl⟩

section Ports

variable {kind : AcceptKind} {p : Port τ} {waits : Prop}

-- At most one accept is under way.
theorem Sound.accepts_eq {i : ℕ} {phase : Phase} (h : Sound kind p waits)
    (hi : p.accepts[i]? = some phase) : i = 0 ∧ p.accepts = [phase] := by
  unfold Sound at h
  split at h
  · rename_i ha; simp [ha] at hi
  · rename_i ha; cases i <;> simp_all
  · rename_i ha; cases i <;> simp_all
  · rename_i ha; cases i <;> simp_all
  · exact h.elim

-- An item reaches a port that waits for it.
theorem Sound.deliver (item : τ) (h : Sound kind p True) :
    Sound kind (p.fill item).set False := by
  unfold Sound at h
  split at h
  · exact absurd trivial h.1
  · exact absurd trivial h.1
  · rename_i ha
    simp [Sound, Port.fill, Port.set, ha, Phase.wake, Settled]
  · rename_i ha
    simp [Sound, Port.fill, Port.set, ha, Phase.wake, Settled]
  · exact h.elim

theorem Sound.of_started (h : Sound kind p waits) (ha : p.accepts = [.started]) :
    ¬waits ∧ p.holder = none ∧ p.ev = false := by
  simpa [Sound, ha] using h

theorem Sound.of_popped (h : Sound kind p waits) (ha : p.accepts = [.popped]) :
    Settled p waits := by
  simpa [Sound, ha] using h

theorem Sound.of_waiting {fired : Bool} (h : Sound kind p waits)
    (ha : p.accepts = [.waiting fired]) : Settled p waits ∧ fired = p.ev := by
  simpa [Sound, ha] using h

theorem Sound.of_idle (h : Sound kind p waits) (ha : p.accepts = []) :
    ¬waits ∧ (kind = .request → p.holder = none) := by
  simpa [Sound, ha] using h

end Ports

section UpdatePort

variable [DecidableEq ρ] (net : AcceptNet τ κ ρ) (c d : ρ) (f g : Port τ → Port τ)

@[simp] theorem updatePort_queues : (net.updatePort c f).queues = net.queues := rfl

@[simp] theorem updatePort_home : (net.updatePort c f).home = net.home := rfl

@[simp] theorem updatePort_calls : (net.updatePort c f).calls = net.calls := rfl

@[simp] theorem updatePort_handed : (net.updatePort c f).handed = net.handed := rfl

@[simp] theorem updatePort_port : (net.updatePort c f).ports c = f (net.ports c) := by
  simp [updatePort]

theorem updatePort_port_ne {c d : ρ} (h : d ≠ c) : (net.updatePort c f).ports d = net.ports d := by
  simp [updatePort, h]

theorem updatePort_updatePort :
    (net.updatePort c f).updatePort c g = net.updatePort c fun p => g (f p) := by
  simp [updatePort]

@[simp] theorem waits_updatePort : (net.updatePort c f).Waits d ↔ net.Waits d := Iff.rfl

variable {net} {kind : AcceptKind}

-- Only one port changes, and it stays sound.
theorem updatePort_sequential (h : Sequential kind net)
    (hhomed : (f (net.ports c)).accepts ≠ [] → (net.home c).isSome)
    (hport : Sound kind (f (net.ports c)) (net.Waits c)) :
    Sequential kind (net.updatePort c f) where
  exclusive := h.exclusive
  entries := h.entries
  nodup := h.nodup
  homed := by
    intro d hd
    by_cases hdc : d = c
    · subst hdc
      rw [updatePort_port] at hd
      exact hhomed hd
    · rw [updatePort_port_ne _ _ hdc] at hd
      exact h.homed d hd
  ports := by
    intro d
    by_cases hdc : d = c
    · subst hdc
      simpa using hport
    · rw [updatePort_port_ne _ _ hdc, waits_updatePort]
      exact h.ports d

end UpdatePort

section UpdateQueue

variable [DecidableEq κ] (net : AcceptNet τ κ ρ) (k : κ) (op : ItemQueue.Op τ ρ ρ)
  (q : ItemQueue τ ρ ρ)

@[simp] theorem updateQueue_ports : (net.updateQueue k op q).ports = net.ports := rfl

@[simp] theorem updateQueue_home : (net.updateQueue k op q).home = net.home := rfl

@[simp] theorem updateQueue_handed : (net.updateQueue k op q).handed = net.handed := rfl

@[simp] theorem updateQueue_queue : (net.updateQueue k op q).queues k = q := by
  simp [updateQueue]

theorem updateQueue_queue_ne {k l : κ} (h : l ≠ k) :
    (net.updateQueue k op q).queues l = net.queues l := by
  simp [updateQueue, h]

@[simp] theorem updateQueue_call : (net.updateQueue k op q).calls k = net.calls k ++ [op] := by
  simp [updateQueue]

theorem updateQueue_call_ne {k l : κ} (h : l ≠ k) :
    (net.updateQueue k op q).calls l = net.calls l := by
  simp [updateQueue, h]

-- Whether an object waits is decided by its own queue.
theorem waits_updateQueue (c : ρ) :
    (net.updateQueue k op q).Waits c ↔
      if net.home c = some k then c ∈ q.queueEntries.map QueueEntry.item else net.Waits c := by
  by_cases hc : net.home c = some k
  · simp [Waits, waiters, hc]
  · simp only [Waits, waiters, updateQueue_home, hc, if_false]
    apply exists_congr
    intro l
    by_cases hl : l = k
    · simp [hl, hc]
    · simp [updateQueue_queue_ne net _ _ hl]

variable {net}

theorem updateQueue_tidy (h : Tidy net) (hexclusive : Exclusive q)
    (hentries : ∀ e ∈ q.queueEntries, e.event = e.item ∧ net.home e.item = some k)
    (hnodup : (q.queueEntries.map QueueEntry.item).Nodup) : Tidy (net.updateQueue k op q) where
  exclusive := by
    intro l
    by_cases hl : l = k
    · subst hl
      simpa using hexclusive
    · simpa [updateQueue_queue_ne net _ _ hl] using h.exclusive l
  entries := by
    intro l e he
    by_cases hl : l = k
    · subst hl
      rw [updateQueue_queue] at he
      exact hentries e he
    · rw [updateQueue_queue_ne net _ _ hl] at he
      exact h.entries l e he
  nodup := by
    intro l
    by_cases hl : l = k
    · subst hl
      simpa [waiters] using hnodup
    · simpa [waiters, updateQueue_queue_ne net _ _ hl] using h.nodup l

-- The waiters of a queue change by one object at most, whose port changes with it.
theorem updateQueue_updatePort_sequential [DecidableEq ρ] {kind : AcceptKind} {c : ρ}
    {f : Port τ → Port τ} (h : Sequential kind net) (htidy : Tidy (net.updateQueue k op q))
    (hhome : net.home c = some k)
    (hothers : ∀ d, d ≠ c → (d ∈ q.queueEntries.map QueueEntry.item ↔ d ∈ net.waiters k))
    (hport : Sound kind (f (net.ports c)) (c ∈ q.queueEntries.map QueueEntry.item)) :
    Sequential kind ((net.updateQueue k op q).updatePort c f) where
  exclusive := htidy.exclusive
  entries := htidy.entries
  nodup := htidy.nodup
  homed := by
    intro d hd
    by_cases hdc : d = c
    · subst hdc
      simp [hhome]
    · rw [updatePort_port_ne _ _ hdc] at hd
      exact h.homed d hd
  ports := by
    intro d
    rw [waits_updatePort, waits_updateQueue]
    by_cases hdc : d = c
    · subst hdc
      simpa [hhome] using hport
    · rw [updatePort_port_ne _ _ hdc, updateQueue_ports]
      have hwaits : (if net.home d = some k then d ∈ q.queueEntries.map QueueEntry.item
          else net.Waits d) ↔ net.Waits d := by
        by_cases hd : net.home d = some k
        · simp only [hd, if_true, hothers d hdc, waits_of_home hd]
        · simp [hd]
      simpa only [hwaits] using h.ports d

end UpdateQueue

section Delivery

variable [DecidableEq κ] [DecidableEq ρ] {kind : AcceptKind} {net : AcceptNet τ κ ρ}

-- An item was moved to the holder and the event was set.
def deliver (net : AcceptNet τ κ ρ) (c : ρ) (item : τ) : AcceptNet τ κ ρ :=
  net.updatePort c fun p => (p.fill item).set

-- What a push can do: store the item, or serve the object at the back.
theorem push_cases {k : κ} (item : τ)
    (h : ∀ e ∈ (net.queues k).queueEntries, e.event = e.item ∧ net.home e.item = some k) :
    ((net.queues k).queueEntries = [] ∧
      net.push k item = net.updateQueue k (.push item) ⟨(net.queues k).items ++ [item], []⟩) ∨
    ∃ entries c, (net.queues k).queueEntries = entries ++ [⟨c, c⟩] ∧ net.home c = some k ∧
      net.push k item =
        (net.updateQueue k (.push item) ⟨(net.queues k).items, entries⟩).deliver c item := by
  rcases ItemQueue.push_cases (net.queues k) item with ⟨he, hp⟩ | ⟨entries, ⟨event, c⟩, he, hp⟩
  · exact .inl ⟨he, by simp [push, hp, finish]⟩
  · obtain ⟨hevent, hhome⟩ := h ⟨event, c⟩ (by simp [he])
    simp only at hevent
    subst hevent
    refine .inr ⟨entries, event, he, hhome, ?_⟩
    simp only [push, hp, finish, updatePort_updatePort, deliver]

-- What a pop can do: register, or take the item at the back.
theorem asyncPop_cases (net : AcceptNet τ κ ρ) (k : κ) (c : ρ) :
    ((net.queues k).items = [] ∧
      net.asyncPop k c = net.updateQueue k (.asyncPop c c)
        ⟨[], (net.queues k).queueEntries ++ [⟨c, c⟩]⟩) ∨
    ∃ items item, (net.queues k).items = items ++ [item] ∧
      net.asyncPop k c = (net.updateQueue k (.asyncPop c c)
        ⟨items, (net.queues k).queueEntries⟩).deliver c item := by
  rcases ItemQueue.asyncPop_cases (net.queues k) c c with ⟨hi, hp⟩ | ⟨items, item, hi, hp⟩
  · exact .inl ⟨hi, by simp [asyncPop, hp, finish]⟩
  · refine .inr ⟨items, item, hi, ?_⟩
    simp only [asyncPop, hp, finish, updatePort_updatePort, deliver]

theorem push_sequential (h : Sequential kind net) (k : κ) (item : τ) :
    Sequential kind (net.push k item) := by
  have hexclusive := ItemQueue.push_exclusive (net.queues k) item (h.exclusive k)
  rcases push_cases item (h.entries k) with ⟨he, hp⟩ | ⟨entries, c, he, hhome, hp⟩
  · rw [ItemQueue.push_of_nil he] at hexclusive
    have htidy := updateQueue_tidy k (.push item) _ h.toTidy hexclusive (by simp) (by simp)
    rw [hp]
    refine ⟨htidy, h.homed, ?_⟩
    intro d
    have hwaits : (net.updateQueue k (.push item) ⟨(net.queues k).items ++ [item], []⟩).Waits d ↔
        net.Waits d := by
      rw [waits_updateQueue]
      by_cases hd : net.home d = some k
      · simp [hd, Waits, waiters, he]
      · simp [hd]
    simpa [hwaits] using h.ports d
  · rw [ItemQueue.push_of_concat he] at hexclusive
    have hnodup := h.nodup k
    rw [waiters, he, List.map_append, List.nodup_append] at hnodup
    have hnot : c ∉ entries.map QueueEntry.item := fun hm => hnodup.2.2 c hm c (by simp) rfl
    have hentries : ∀ e ∈ entries, e.event = e.item ∧ net.home e.item = some k :=
      fun e hm => h.entries k e (by simp [he, hm])
    have htidy := updateQueue_tidy k (.push item) ⟨_, entries⟩ h.toTidy hexclusive hentries hnodup.1
    rw [hp, deliver]
    refine updateQueue_updatePort_sequential k _ _ h htidy hhome ?_ ?_
    · intro d hd
      simp [waiters, he, hd]
    · have hport := h.ports c
      have hwaits : net.Waits c := ⟨k, hhome, by simp [waiters, he]⟩
      simp only [hwaits] at hport
      simpa [hnot] using hport.deliver item

end Delivery

-- What the steps of a loop do that runs one accept at a time.
section Loop

variable [DecidableEq ρ] {kind : AcceptKind} {net : AcceptNet τ κ ρ} {c : ρ} {i : ℕ}

theorem setQueue_cases (h : Sequential kind net) (k : κ) (hc : net.home c = none) :
    ∃ net', net.setQueue c k = .ok net' ∧ Sequential kind net' ∧
      net' = { net with home := Function.update net.home c (some k) } := by
  have hne : ∀ l, ∀ e ∈ (net.queues l).queueEntries, e.item ≠ c := by
    intro l e he heq
    have hhome := (h.entries l e he).2
    rw [heq, hc] at hhome
    exact absurd hhome (by simp)
  refine ⟨_, by simp [setQueue, hc], ?_, rfl⟩
  refine ⟨⟨h.exclusive, ?_, h.nodup⟩, ?_, ?_⟩
  · intro l e he
    simpa [hne l e he] using h.entries l e he
  · intro d hd
    by_cases hdc : d = c
    · simp [hdc]
    · simpa [hdc] using h.homed d hd
  · intro d
    by_cases hdc : d = c
    · subst hdc
      have hold : ¬net.Waits d := fun ⟨l, hl, _⟩ => by simp [hc] at hl
      have hnew : ¬Waits { net with home := Function.update net.home d (some k) } d := by
        rintro ⟨l, -, hl⟩
        obtain ⟨e, he, hed⟩ := List.mem_map.mp hl
        exact hne l e he hed
      simpa [hold, hnew] using h.ports d
    · have hwaits : Waits { net with home := Function.update net.home c (some k) } d ↔
          net.Waits d := by
        simp [Waits, waiters, hdc]
      simpa [hwaits] using h.ports d

theorem start_cases (h : Sequential kind net) (hhome : (net.home c).isSome)
    (hidle : (net.ports c).accepts = []) :
    ∃ net', net.start kind c = .ok net' ∧ Sequential kind net' ∧
      net' = net.updatePort c fun p =>
        { p.reset with holder := none, accepts := p.accepts ++ [.started] } := by
  obtain ⟨hwaits, hholder⟩ := (h.ports c).of_idle hidle
  obtain ⟨k, hk⟩ := Option.isSome_iff_exists.mp hhome
  refine ⟨_, ?_, ?_, rfl⟩
  · cases kind with
    | request => simp [start, hk, hholder rfl]
    | connection => simp [start, hk]
  · apply updatePort_sequential _ _ h
    · exact fun _ => hhome
    · simpa [Sound, hidle, Port.reset] using hwaits

theorem wait_sequential (h : Sequential kind net)
    (hi : (net.ports c).accepts[i]? = some .popped) : Sequential kind (net.wait c i) := by
  obtain ⟨rfl, ha⟩ := (h.ports c).accepts_eq hi
  rw [wait, setPhase]
  apply updatePort_sequential _ _ h
  · exact fun _ => h.homed c (by simp [ha])
  · simpa [Sound, ha, Settled] using (h.ports c).of_popped ha

-- The handler of a wait that ended well finds an item.
theorem complete_cases (h : Sequential kind net)
    (hi : (net.ports c).accepts[i]? = some (.waiting true)) :
    ∃ net' item, (net.ports c).holder = some item ∧ net.complete kind c i false = .ok net' ∧
      Sequential kind net' ∧ (∃ rest, net'.ports =
        Function.update net.ports c { net.ports c with holder := rest, accepts := [] }) ∧
      net'.queues = net.queues ∧ net'.home = net.home ∧ net'.calls = net.calls ∧
      net'.handed = net.handed ++ [(c, ⟨false, some item⟩)] := by
  obtain ⟨rfl, ha⟩ := (h.ports c).accepts_eq hi
  obtain ⟨hsettled, hev⟩ := (h.ports c).of_waiting ha
  obtain ⟨-, -, hfalse⟩ | ⟨hwaits, hholder, -⟩ := hsettled
  · rw [hfalse] at hev
    exact absurd hev (by simp)
  obtain ⟨item, hitem⟩ := Option.isSome_iff_exists.mp hholder
  have hnext (rest : Option τ) (hrest : kind = .request → rest = none) :
      Sequential kind (net.handOver c 0 false rest) := by
    have hport := updatePort_sequential c
      (fun p => { p with holder := rest, accepts := p.accepts.eraseIdx 0 }) h
      (by simp [ha]) (by simpa [Sound, ha] using ⟨hwaits, hrest⟩)
    exact ⟨⟨hport.exclusive, hport.entries, hport.nodup⟩, hport.homed, hport.ports⟩
  cases kind with
  | request =>
      refine ⟨_, item, hitem, rfl, hnext none fun _ => rfl, ⟨none, ?_⟩, rfl, rfl, rfl, ?_⟩
      · simp [handOver, updatePort, ha]
      · simp [handOver, hitem]
  | connection =>
      refine ⟨_, item, hitem, by simp only [complete, hitem], hnext (some item) (by simp),
        ⟨some item, ?_⟩, rfl, rfl, rfl, ?_⟩
      · simp [handOver, updatePort, ha]
      · simp [handOver, hitem]

end Loop

section Pop

variable [DecidableEq κ] [DecidableEq ρ] {kind : AcceptKind} {net : AcceptNet τ κ ρ} {c : ρ} {i : ℕ}

def popped (p : Port τ) : Port τ := { p with accepts := [.popped] }

-- What a pop step can do: register in the queue of the object, or take an item from it.
theorem pop_cases (h : Sequential kind net) (hi : (net.ports c).accepts[i]? = some .started) :
    ∃ net' k, net.home c = some k ∧ net.pop c i = .ok net' ∧ Sequential kind net' ∧
      (((net.queues k).items = [] ∧ net' = (net.updateQueue k (.asyncPop c c)
          ⟨[], (net.queues k).queueEntries ++ [⟨c, c⟩]⟩).updatePort c popped) ∨
        ∃ items item, (net.queues k).items = items ++ [item] ∧ net' = (net.updateQueue k
          (.asyncPop c c) ⟨items, (net.queues k).queueEntries⟩).updatePort c
            fun p => popped (p.fill item).set) := by
  obtain ⟨rfl, ha⟩ := (h.ports c).accepts_eq hi
  obtain ⟨k, hk⟩ := Option.isSome_iff_exists.mp (h.homed c (by simp [ha]))
  obtain ⟨hwaits, hholder, hev⟩ := (h.ports c).of_started ha
  have hnot : c ∉ net.waiters k := fun hm => hwaits ((waits_of_home hk).mpr hm)
  have hexclusive := ItemQueue.asyncPop_exclusive (net.queues k) c c (h.exclusive k)
  refine ⟨(net.asyncPop k c).setPhase c 0 .popped, k, hk, by simp [pop, hk], ?_⟩
  rcases asyncPop_cases net k c with ⟨hitems, hp⟩ | ⟨items, item, hitems, hp⟩
  · rw [ItemQueue.asyncPop_of_nil hitems] at hexclusive
    have hnet : (net.asyncPop k c).setPhase c 0 .popped = (net.updateQueue k (.asyncPop c c)
        ⟨[], (net.queues k).queueEntries ++ [⟨c, c⟩]⟩).updatePort c popped := by
      simp [hp, setPhase, updatePort, popped, ha]
    rw [hnet]
    refine ⟨?_, .inl ⟨hitems, rfl⟩⟩
    apply updateQueue_updatePort_sequential k _ _ h _ hk
    · intro d hd
      simp [waiters, hd]
    · simp [popped, Sound, Settled, hholder, hev]
    · apply updateQueue_tidy k _ _ h.toTidy hexclusive
      · intro e he
        rcases List.mem_append.mp he with he | he
        · exact h.entries k e he
        · rw [List.mem_singleton.mp he]
          exact ⟨rfl, hk⟩
      · rw [List.map_append, List.nodup_append]
        refine ⟨h.nodup k, by simp, ?_⟩
        intro d hd b hb hdb
        simp only [List.map_cons, List.map_nil, List.mem_singleton] at hb
        subst hb hdb
        exact hnot hd
  · rw [ItemQueue.asyncPop_of_concat hitems] at hexclusive
    have hnet : (net.asyncPop k c).setPhase c 0 .popped = (net.updateQueue k (.asyncPop c c)
        ⟨items, (net.queues k).queueEntries⟩).updatePort c
          fun p => popped (p.fill item).set := by
      simp [hp, deliver, setPhase, popped, ha, Port.set, Port.fill,
        updatePort, Phase.wake]
    rw [hnet]
    refine ⟨?_, .inr ⟨items, item, hitems, rfl⟩⟩
    apply updateQueue_updatePort_sequential k _ _ h _ hk
    · exact fun d _ => Iff.rfl
    · simpa [popped, Sound, Settled, Port.fill, Port.set, waiters] using hnot
    · exact updateQueue_tidy k _ _ h.toTidy hexclusive (h.entries k) (h.nodup k)

end Pop

section Step

variable [DecidableEq κ] [DecidableEq ρ] {kind : AcceptKind} {net : AcceptNet τ κ ρ}

-- A loop that runs one accept at a time faults on no step, and stays sequential.
theorem exec_sequential (h : Sequential kind net) {labels : List (AcceptLabel τ κ ρ)}
    {label : AcceptLabel τ κ ρ} (hallow : OneAtATime labels net label)
    (henabled : Enabled net label) :
    ∃ net', exec kind net label = .ok net' ∧ Sequential kind net' := by
  cases label with
  | attach c k =>
      obtain ⟨net', hx, hnext, -⟩ := setQueue_cases h k hallow
      exact ⟨net', hx, hnext⟩
  | push k item => exact ⟨_, rfl, push_sequential h k item⟩
  | start c =>
      obtain ⟨net', hx, hnext, -⟩ := start_cases h hallow.1 hallow.2
      exact ⟨net', hx, hnext⟩
  | pop c i =>
      obtain ⟨net', k, -, hx, hnext, -⟩ := pop_cases h henabled
      exact ⟨net', hx, hnext⟩
  | wait c i => exact ⟨_, rfl, wait_sequential h henabled⟩
  | complete c i error =>
      obtain ⟨fired, hi, hfired⟩ := henabled
      simp only [OneAtATime] at hallow
      subst hallow
      rw [hfired rfl] at hi
      obtain ⟨net', item, -, hx, hnext, -⟩ := complete_cases h hi
      exact ⟨net', hx, hnext⟩
  | cancel c => exact hallow.elim

end Step

end FabricRpc.V2.AcceptNet
