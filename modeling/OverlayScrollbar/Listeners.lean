import OverlayScrollbar.Single.Basic

/-!
# Scroll listeners

Whoever scrolls keeps a registry of listeners. A change is queued once for every listener; the owner
of the registry drains the queue and takes each entry to its listener.

- `ScrollChange` : a scroll offset and the one before it
- `Listeners`    : the registry and its queue
-/

namespace OverlayScrollbar

/-- Listeners are told apart by number. -/
abbrev ListenerId : Type :=
  Nat

/-- A scroll offset after a change and before it. -/
structure ScrollChange where
  x : Single
  y : Single
  oldX : Single
  oldY : Single
  deriving DecidableEq, Repr

/-- A registry of listeners with the changes that they are still to be told. -/
structure Listeners where
  /-- The listeners in the order of registration. -/
  ids : List ListenerId
  /-- The queue, oldest entry first. -/
  queue : List (ListenerId × ScrollChange)
  deriving DecidableEq, Repr

namespace Listeners

/-- No listener is registered. -/
def empty : Listeners :=
  ⟨[], []⟩

instance : Inhabited Listeners where
  default := empty

/-- Registers a listener and tells whether it was new. -/
def add (listeners : Listeners) (id : ListenerId) : Listeners × Bool :=
  if listeners.ids.contains id then (listeners, false)
  else ({ listeners with ids := listeners.ids ++ [id] }, true)

/-- Removes a listener and all that is queued for it. -/
def remove (listeners : Listeners) (id : ListenerId) : Listeners :=
  ⟨listeners.ids.filter (· != id), listeners.queue.filter (·.1 != id)⟩

/-- Queues a change for every listener. -/
def notify (listeners : Listeners) (change : ScrollChange) : Listeners :=
  { listeners with queue := listeners.queue ++ listeners.ids.map (·, change) }

/-- Hands out the queue. -/
def drain (listeners : Listeners) : Listeners × List (ListenerId × ScrollChange) :=
  ({ listeners with queue := [] }, listeners.queue)

/-- How many listeners are registered. -/
def size (listeners : Listeners) : Nat :=
  listeners.ids.length

/-- No listener is registered. -/
def isEmpty (listeners : Listeners) : Bool :=
  listeners.ids.isEmpty

/-! ## What the operations do -/

theorem mem_ids_add {listeners : Listeners} {id other : ListenerId} :
    other ∈ (listeners.add id).1.ids ↔ other ∈ listeners.ids ∨ other = id := by
  unfold add
  split
  · rename_i h
    simp only [List.contains_eq_mem, decide_eq_true_eq] at h
    constructor
    · exact Or.inl
    · rintro (hmem | rfl)
      · exact hmem
      · exact h
  · simp

@[simp]
theorem queue_add (listeners : Listeners) (id : ListenerId) :
    (listeners.add id).1.queue = listeners.queue := by
  unfold add
  split
  · rfl
  · rfl

@[simp]
theorem ids_notify (listeners : Listeners) (change : ScrollChange) :
    (listeners.notify change).ids = listeners.ids :=
  rfl

@[simp]
theorem queue_drain (listeners : Listeners) : listeners.drain.1.queue = [] :=
  rfl

/-- The registered listeners stay different from each other. -/
theorem nodup_ids_add {listeners : Listeners} {id : ListenerId} (h : listeners.ids.Nodup) :
    (listeners.add id).1.ids.Nodup := by
  unfold add
  split
  · exact h
  · rename_i hid
    simp only [List.contains_eq_mem, decide_eq_true_eq] at hid
    refine List.nodup_append.2 ⟨h, by simp, ?_⟩
    rintro a ha b hb rfl
    simp only [List.mem_singleton] at hb
    subst hb
    exact hid ha

end Listeners

end OverlayScrollbar
