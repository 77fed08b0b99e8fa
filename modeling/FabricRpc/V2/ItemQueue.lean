import Mathlib.Data.List.Basic

namespace FabricRpc.V2

-- What a waiting pop leaves in the queue: the event to set and the address
-- (`T *item`) that the item is to be moved to.
structure QueueEntry (ε σ : Type*) where
  event : ε
  item : σ
  deriving DecidableEq

-- basic_item_queue. Both vectors are lists in vector order, so `back` is the
-- last element. Each call is one step here. For push and async_pop the mutex
-- makes it one, but cancel takes no lock, and this leaves out what it can do
-- in the middle of another call.
structure ItemQueue (τ ε σ : Type*) where
  items : List τ
  queueEntries : List (QueueEntry ε σ)
  deriving DecidableEq

namespace ItemQueue

variable {τ ε σ : Type*}

def new : ItemQueue τ ε σ := ⟨[], []⟩

-- The second component is the waiter that the call finishes: the caller of
-- the model moves the item to the address and sets the event.
def push (q : ItemQueue τ ε σ) (item : τ) : ItemQueue τ ε σ × Option (QueueEntry ε σ × τ) :=
  match q.queueEntries.getLast? with
  | none => ({ q with items := q.items ++ [item] }, none)
  | some e => ({ q with queueEntries := q.queueEntries.dropLast }, some (e, item))

def asyncPop (q : ItemQueue τ ε σ) (event : ε) (msgout : σ) :
    ItemQueue τ ε σ × Option (QueueEntry ε σ × τ) :=
  match q.items.getLast? with
  | none => ({ q with queueEntries := q.queueEntries ++ [⟨event, msgout⟩] }, none)
  | some item => ({ q with items := q.items.dropLast }, some (⟨event, msgout⟩, item))

-- Only the tail can be cancelled.
def cancel [DecidableEq ε] (q : ItemQueue τ ε σ) (event : ε) : ItemQueue τ ε σ :=
  match q.queueEntries.getLast? with
  | none => q
  | some e => if e.event = event then { q with queueEntries := q.queueEntries.dropLast } else q

theorem push_of_nil {q : ItemQueue τ ε σ} (h : q.queueEntries = []) (item : τ) :
    q.push item = (⟨q.items ++ [item], []⟩, none) := by
  simp [push, h]

theorem push_of_concat {q : ItemQueue τ ε σ} {entries : List (QueueEntry ε σ)}
    {e : QueueEntry ε σ} (h : q.queueEntries = entries ++ [e]) (item : τ) :
    q.push item = (⟨q.items, entries⟩, some (e, item)) := by
  simp [push, h]

theorem asyncPop_of_nil {q : ItemQueue τ ε σ} (h : q.items = []) (event : ε) (msgout : σ) :
    q.asyncPop event msgout = (⟨[], q.queueEntries ++ [⟨event, msgout⟩]⟩, none) := by
  simp [asyncPop, h]

theorem asyncPop_of_concat {q : ItemQueue τ ε σ} {items : List τ} {item : τ}
    (h : q.items = items ++ [item]) (event : ε) (msgout : σ) :
    q.asyncPop event msgout = (⟨items, q.queueEntries⟩, some (⟨event, msgout⟩, item)) := by
  simp [asyncPop, h]

-- What a push can do: store the item, or finish the waiter at the back.
theorem push_cases (q : ItemQueue τ ε σ) (item : τ) :
    (q.queueEntries = [] ∧ q.push item = (⟨q.items ++ [item], []⟩, none)) ∨
    ∃ entries e, q.queueEntries = entries ++ [e] ∧
      q.push item = (⟨q.items, entries⟩, some (e, item)) := by
  rcases q.queueEntries.eq_nil_or_concat' with h | ⟨entries, e, h⟩
  · exact .inl ⟨h, push_of_nil h item⟩
  · exact .inr ⟨entries, e, h, push_of_concat h item⟩

-- What a pop can do: register, or take the item at the back.
theorem asyncPop_cases (q : ItemQueue τ ε σ) (event : ε) (msgout : σ) :
    (q.items = [] ∧
      q.asyncPop event msgout = (⟨[], q.queueEntries ++ [⟨event, msgout⟩]⟩, none)) ∨
    ∃ items item, q.items = items ++ [item] ∧
      q.asyncPop event msgout = (⟨items, q.queueEntries⟩, some (⟨event, msgout⟩, item)) := by
  rcases q.items.eq_nil_or_concat' with h | ⟨items, item, h⟩
  · exact .inl ⟨h, asyncPop_of_nil h event msgout⟩
  · exact .inr ⟨items, item, h, asyncPop_of_concat h event msgout⟩

-- What a cancel can do: nothing, or remove the waiter at the back.
theorem cancel_cases [DecidableEq ε] (q : ItemQueue τ ε σ) (event : ε) :
    q.cancel event = q ∨
    ∃ entries e, q.queueEntries = entries ++ [e] ∧ e.event = event ∧
      q.cancel event = ⟨q.items, entries⟩ := by
  rcases q.queueEntries.eq_nil_or_concat' with h | ⟨entries, e, h⟩
  · exact .inl (by simp [cancel, h])
  · by_cases he : e.event = event
    · exact .inr ⟨entries, e, h, he, by simp [cancel, h, he]⟩
    · exact .inl (by simp [cancel, h, he])

-- What a push leaves stored or hands over.
theorem push_leaves (q : ItemQueue τ ε σ) (item : τ) :
    (∀ x ∈ (q.push item).1.items, x ∈ q.items ∨ x = item) ∧
      (∀ e x, (q.push item).2 = some (e, x) → x = item) ∧
      (item ∈ (q.push item).1.items ∨ ∃ e, (q.push item).2 = some (e, item)) := by
  rcases push_cases q item with ⟨-, hp⟩ | ⟨entries, e, -, hp⟩
  · simp [hp]
  · refine ⟨?_, ?_, .inr ⟨e, by rw [hp]⟩⟩
    · rw [hp]
      exact fun x hx => .inl hx
    · simp [hp]

-- What a pop leaves stored or hands over.
theorem asyncPop_leaves (q : ItemQueue τ ε σ) (event : ε) (msgout : σ) :
    (∀ x ∈ (q.asyncPop event msgout).1.items, x ∈ q.items) ∧
      ∀ e x, (q.asyncPop event msgout).2 = some (e, x) → x ∈ q.items := by
  rcases asyncPop_cases q event msgout with ⟨-, hp⟩ | ⟨items, item, hi, hp⟩
  · simp [hp]
  · rw [hp, hi]
    refine ⟨fun x hx => List.mem_append_left _ hx, ?_⟩
    intro e x hx
    obtain ⟨-, rfl⟩ := Prod.mk.inj (Option.some.inj hx)
    exact List.mem_append_right _ List.mem_cons_self

@[simp] theorem cancel_items [DecidableEq ε] (q : ItemQueue τ ε σ) (event : ε) :
    (q.cancel event).items = q.items := by
  rcases cancel_cases q event with hc | ⟨entries, e, -, -, hc⟩ <;> rw [hc]

-- The calls on one queue.
inductive Op (τ ε σ : Type*) where
  | push (item : τ)
  | asyncPop (event : ε) (msgout : σ)
  | cancel (event : ε)
  deriving DecidableEq

-- What a call makes of the queue.
def call [DecidableEq ε] (q : ItemQueue τ ε σ) : Op τ ε σ → ItemQueue τ ε σ
  | .push item => (q.push item).1
  | .asyncPop event msgout => (q.asyncPop event msgout).1
  | .cancel event => q.cancel event

-- What a call leaves waiting.
theorem call_entries [DecidableEq ε] (q : ItemQueue τ ε σ) (op : Op τ ε σ) :
    ∀ e ∈ (q.call op).queueEntries,
      e ∈ q.queueEntries ∨ op = .asyncPop e.event e.item := by
  intro e he
  cases op with
  | push item =>
      rcases push_cases q item with ⟨-, hp⟩ | ⟨entries, last, hlast, hp⟩
      · simp [call, hp] at he
      · rw [call, hp] at he
        exact .inl (by simp [hlast, show e ∈ entries from he])
  | asyncPop event msgout =>
      rcases asyncPop_cases q event msgout with ⟨-, hp⟩ | ⟨items, item, -, hp⟩
      · rw [call, hp, List.mem_append, List.mem_singleton] at he
        rcases he with he | rfl
        · exact .inl he
        · exact .inr rfl
      · rw [call, hp] at he
        exact .inl he
  | cancel event =>
      rcases cancel_cases q event with hc | ⟨entries, last, hlast, -, hc⟩
      · rw [call, hc] at he
        exact .inl he
      · rw [call, hc] at he
        exact .inl (by simp [hlast, show e ∈ entries from he])

-- The waiters come and go at the tail, and only a pop adds one.
theorem call_queueEntries [DecidableEq ε] (q : ItemQueue τ ε σ) (op : Op τ ε σ) :
    (q.call op).queueEntries <+: q.queueEntries ∨
      ∃ event msgout, op = .asyncPop event msgout ∧
        (q.call op).queueEntries = q.queueEntries ++ [⟨event, msgout⟩] := by
  cases op with
  | push item =>
      left
      rcases push_cases q item with ⟨he, hp⟩ | ⟨entries, e, he, hp⟩
      · simp [call, hp]
      · simp [call, hp, he]
  | asyncPop event msgout =>
      rcases asyncPop_cases q event msgout with ⟨-, hp⟩ | ⟨items, item, -, hp⟩
      · exact .inr ⟨event, msgout, rfl, by rw [call, hp]⟩
      · left
        simp [call, hp]
  | cancel event =>
      left
      rcases cancel_cases q event with hc | ⟨entries, e, he, -, hc⟩
      · simp [call, hc]
      · simp [call, hc, he]

-- A queue together with what its calls did to the world: every assignment
-- through an address and every set() of an event, in order. The entries that
-- cancel removed are kept for the statements only.
structure Trace (τ ε σ : Type*) where
  queue : ItemQueue τ ε σ
  written : List (σ × τ)
  signalled : List ε
  cancelled : List (QueueEntry ε σ)

namespace Trace

def new : Trace τ ε σ := ⟨.new, [], [], []⟩

-- `*e.item = std::move(item); e.event->set();`
def finish (t : Trace τ ε σ) : ItemQueue τ ε σ × Option (QueueEntry ε σ × τ) → Trace τ ε σ
  | (q, none) => { t with queue := q }
  | (q, some (e, item)) =>
      { t with
        queue := q
        written := t.written ++ [(e.item, item)]
        signalled := t.signalled ++ [e.event] }

def apply [DecidableEq ε] (t : Trace τ ε σ) : Op τ ε σ → Trace τ ε σ
  | .push item => t.finish (t.queue.push item)
  | .asyncPop event msgout => t.finish (t.queue.asyncPop event msgout)
  | .cancel event =>
      let q := t.queue.cancel event
      { t with
        queue := q
        cancelled := t.cancelled ++ t.queue.queueEntries.drop q.queueEntries.length }

end Trace

theorem Trace.apply_queue [DecidableEq ε] (t : Trace τ ε σ) (op : Op τ ε σ) :
    (t.apply op).queue = t.queue.call op := by
  cases op with
  | push item =>
      rcases push_cases t.queue item with ⟨-, hp⟩ | ⟨entries, e, -, hp⟩ <;>
        simp [Trace.apply, call, hp, Trace.finish]
  | asyncPop event msgout =>
      rcases asyncPop_cases t.queue event msgout with ⟨-, hp⟩ | ⟨items, item, -, hp⟩ <;>
        simp [Trace.apply, call, hp, Trace.finish]
  | cancel event => rfl

def run [DecidableEq ε] (ops : List (Op τ ε σ)) : Trace τ ε σ :=
  ops.foldl Trace.apply .new

@[simp] theorem run_nil [DecidableEq ε] : run ([] : List (Op τ ε σ)) = .new := rfl

@[simp] theorem run_snoc [DecidableEq ε] (ops : List (Op τ ε σ)) (op : Op τ ε σ) :
    run (ops ++ [op]) = (run ops).apply op := by
  simp [run]

theorem run_append [DecidableEq ε] (ops more : List (Op τ ε σ)) :
    run (ops ++ more) = more.foldl Trace.apply (run ops) := by
  simp [run]

-- The queue of a run is what its calls made of it.
theorem foldl_apply_queue [DecidableEq ε] (ops : List (Op τ ε σ)) (t : Trace τ ε σ) :
    (ops.foldl Trace.apply t).queue = ops.foldl call t.queue := by
  induction ops generalizing t with
  | nil => rfl
  | cons op ops ih => rw [List.foldl_cons, List.foldl_cons, ih, Trace.apply_queue]

-- A call moves an item to the address of an entry that waited, or to its own.
theorem apply_written [DecidableEq ε] (t : Trace τ ε σ) (op : Op τ ε σ) :
    ∀ w ∈ (t.apply op).written, w ∈ t.written ∨
      (∃ e ∈ t.queue.queueEntries, e.item = w.1) ∨ ∃ event, op = .asyncPop event w.1 := by
  intro w hw
  cases op with
  | push item =>
      rcases push_cases t.queue item with ⟨-, hp⟩ | ⟨entries, last, hlast, hp⟩
      · rw [Trace.apply, hp] at hw
        exact .inl hw
      · rw [Trace.apply, hp] at hw
        simp only [Trace.finish, List.mem_append, List.mem_singleton] at hw
        rcases hw with hw | rfl
        · exact .inl hw
        · exact .inr (.inl ⟨last, by simp [hlast], rfl⟩)
  | asyncPop event msgout =>
      rcases asyncPop_cases t.queue event msgout with ⟨-, hp⟩ | ⟨items, item, -, hp⟩
      · rw [Trace.apply, hp] at hw
        exact .inl hw
      · rw [Trace.apply, hp] at hw
        simp only [Trace.finish, List.mem_append, List.mem_singleton] at hw
        rcases hw with hw | rfl
        · exact .inl hw
        · exact .inr (.inr ⟨event, rfl⟩)
  | cancel event => exact .inl hw

def Op.pushed : Op τ ε σ → Option τ
  | .push item => some item
  | _ => none

def Op.popped : Op τ ε σ → Option (QueueEntry ε σ)
  | .asyncPop event msgout => some ⟨event, msgout⟩
  | _ => none

-- The items pushed and the pops started, each in call order.
def pushes (ops : List (Op τ ε σ)) : List τ := ops.filterMap Op.pushed

def pops (ops : List (Op τ ε σ)) : List (QueueEntry ε σ) := ops.filterMap Op.popped

end ItemQueue

end FabricRpc.V2
