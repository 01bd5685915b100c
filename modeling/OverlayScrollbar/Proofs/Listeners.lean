import OverlayScrollbar.Listeners
import OverlayScrollbar.Proofs.History

/-!
# Delivery to listeners

What a registry holds is told by its history alone. A listener is registered if it was added and not
removed since; an entry is owed if its change was told while the listener was registered, and neither
was the listener removed nor the queue drained since.

- `Listeners.Operation`  : what is done to a registry
- `Listeners.after`      : the registry after a history
- `Listeners.Registered` : the listener was added and not removed since
- `Listeners.registered` : the registered listeners, in the order of registration
- `Listeners.owed`       : the entries that the next drain has to hand out
- `Listeners.after_eq`   : the registry holds these

Main statement: `delivers_exactly`.
-/

namespace OverlayScrollbar

namespace Listeners

/-- What is done to a registry. -/
inductive Operation
  | add (id : ListenerId)
  | remove (id : ListenerId)
  | notify (change : ScrollChange)
  | drain
  deriving DecidableEq

/-- What an operation answers. -/
inductive Answer
  | done
  /-- Whether the listener was new. -/
  | added (isNew : Bool)
  | drained (entries : List (ListenerId × ScrollChange))
  deriving DecidableEq

/-- Does one operation. -/
def operate (listeners : Listeners) : Operation → Listeners × Answer
  | .add id => ((listeners.add id).1, .added (listeners.add id).2)
  | .remove id => (listeners.remove id, .done)
  | .notify change => (listeners.notify change, .done)
  | .drain => (listeners.drain.1, .drained listeners.drain.2)

/-- The registry after a history that starts with no listener. -/
def after (history : List Operation) : Listeners :=
  history.foldl (fun listeners operation => (listeners.operate operation).1) empty

/-! ## What a history says -/

/-- The listener was added and not removed since. -/
def Registered (history : List Operation) (id : ListenerId) : Prop :=
  ∃ moment ∈ moments history, moment.event = .add id ∧ .remove id ∉ moment.later

instance (history : List Operation) (id : ListenerId) : Decidable (Registered history id) :=
  inferInstanceAs (Decidable (∃ moment ∈ moments history, _ ∧ _))

/-- The listener that an operation registers, if it was not registered before. -/
def registration (earlier : List Operation) : Operation → List ListenerId
  | .add id => if Registered earlier id then [] else [id]
  | _ => []

/-- The registered listeners, in the order of registration. -/
def registered (history : List Operation) : List ListenerId :=
  lasting registration (fun operation id => operation = .remove id) history

/-- The entries for a change that is told of: one for each listener that is registered then. -/
def announcement (earlier : List Operation) : Operation → List (ListenerId × ScrollChange)
  | .notify change => (registered earlier).map (·, change)
  | _ => []

/-- The entries that the next drain has to hand out: those for listeners that were not removed since the
change was told of, and for changes since the queue was last drained. -/
def owed (history : List Operation) : List (ListenerId × ScrollChange) :=
  lasting announcement (fun operation entry => operation = .drain ∨ operation = .remove entry.1)
    history

variable {history : List Operation} {operation : Operation} {id : ListenerId}

/-! ## What the registry holds -/

theorem registered_concat_iff :
    Registered (history ++ [operation]) id ↔
      Registered history id ∧ operation ≠ .remove id ∨ operation = .add id := by
  unfold Registered
  rw [exists_moments_concat_iff]
  simp [Moment.followedBy, ← and_assoc, eq_comm]

theorem registered_concat (history : List Operation) (operation : Operation) :
    registered (history ++ [operation]) =
      (registered history).filter (fun id => !(operation = .remove id)) ++
        registration history operation :=
  lasting_concat history operation

theorem owed_concat (history : List Operation) (operation : Operation) :
    owed (history ++ [operation]) =
      (owed history).filter (fun entry => !(operation = .drain ∨ operation = .remove entry.1)) ++
        announcement history operation :=
  lasting_concat history operation

theorem mem_registered_iff : id ∈ registered history ↔ Registered history id := by
  -- By induction from the last operation: it takes away and adds the same for both.
  induction history using List.reverseRecOn with
  | nil => simp [registered, Registered, lasting, moments]
  | append_singleton history operation ih =>
      rw [registered_concat, registered_concat_iff, List.mem_append, List.mem_filter, ih]
      cases operation with
      | add other =>
          by_cases hold : Registered history other
          · have hsame : id = other → Registered history id := fun h => h ▸ hold
            simpa [registration, hold, eq_comm] using hsame
          · simp [registration, hold, eq_comm]
      | remove other => simp [registration]
      | notify change => simp [registration]
      | drain => simp [registration]

theorem after_concat (history : List Operation) (operation : Operation) :
    after (history ++ [operation]) = ((after history).operate operation).1 :=
  List.foldl_concat ..

/-- An operation takes away the listener that it removes, and adds one that is new. -/
theorem ids_operate (listeners : Listeners) (operation : Operation) :
    (listeners.operate operation).1.ids =
      listeners.ids.filter (fun id => !(operation = .remove id)) ++
        match operation with
        | .add id => if id ∈ listeners.ids then [] else [id]
        | _ => [] := by
  cases operation with
  | add id =>
      by_cases hmem : id ∈ listeners.ids
      · simp [operate, add, hmem]
      · simp [operate, add, hmem]
  | remove id => simp [operate, remove, bne, beq_eq_decide, eq_comm]
  | notify change => simp [operate]
  | drain => simp [operate, drain]

/-- An operation takes away what is queued for a listener that it removes, or hands out, and queues the
change that it tells of. -/
theorem queue_operate (listeners : Listeners) (operation : Operation) :
    (listeners.operate operation).1.queue =
      listeners.queue.filter (fun entry => !(operation = .drain ∨ operation = .remove entry.1)) ++
        match operation with
        | .notify change => listeners.ids.map (·, change)
        | _ => [] := by
  cases operation with
  | add id => simp [operate]
  | remove id => simp [operate, remove, bne, beq_eq_decide, eq_comm]
  | notify change => simp [operate, notify]
  | drain => simp [operate]

/-- The registry holds what its history says. -/
theorem after_eq (history : List Operation) : after history = ⟨registered history, owed history⟩ := by
  -- The last operation is split off, since a history is carried out from its start.
  induction history using List.reverseRecOn with
  | nil => rfl
  | append_singleton history operation ih =>
      have hids : ((after history).operate operation).1.ids = registered (history ++ [operation]) := by
        rw [ids_operate, registered_concat, ih]
        cases operation with
        | add id => simp only [registration, mem_registered_iff]
        | remove id => rfl
        | notify change => rfl
        | drain => rfl
      have hqueue : ((after history).operate operation).1.queue = owed (history ++ [operation]) := by
        rw [queue_operate, owed_concat, ih]
        cases operation with
        | notify change => rfl
        | add id => rfl
        | remove id => rfl
        | drain => rfl
      rw [after_concat, ← hids, ← hqueue]

theorem nodup_ids_operate {listeners : Listeners} (h : listeners.ids.Nodup)
    (operation : Operation) : (listeners.operate operation).1.ids.Nodup := by
  cases operation with
  | add id => exact nodup_ids_add h
  | remove id => exact h.filter _
  | notify change => exact h
  | drain => exact h

theorem nodup_ids_after (history : List Operation) : (after history).ids.Nodup := by
  induction history using List.reverseRecOn with
  | nil => exact List.nodup_nil
  | append_singleton history operation ih =>
      rw [after_concat]
      exact nodup_ids_operate ih operation

/-- After every history the registry holds exactly the listeners that were added and not removed since,
each once and in the order of registration. Adding tells whether the listener was not registered, and
draining hands out exactly what is owed: for each change that was told of since the queue was last
drained, and each listener that was registered then and was not removed since, one entry. -/
theorem delivers_exactly (history : List Operation) :
    (after history).ids = registered history ∧ (after history).ids.Nodup ∧
      (∀ id, id ∈ registered history ↔ Registered history id) ∧
        (∀ id, ((after history).operate (.add id)).2 = .added (¬Registered history id)) ∧
          ((after history).operate .drain).2 = .drained (owed history) := by
  have hnodup : (after history).ids.Nodup := nodup_ids_after history
  rw [after_eq] at hnodup ⊢
  refine ⟨rfl, hnodup, fun id => mem_registered_iff, ?_, rfl⟩
  intro id
  by_cases hold : Registered history id
  · have hmem : id ∈ registered history := mem_registered_iff.2 hold
    simp [operate, add, hmem, hold]
  · have hnew : id ∉ registered history := mt mem_registered_iff.1 hold
    simp [operate, add, hnew, hold]

/-- What was queued before a listener was removed is gone, also if the listener came back. -/
example : owed [.add 1, .add 2, .notify ⟨0, 5, 0, 0⟩, .remove 1, .add 1, .notify ⟨0, 9, 0, 5⟩] =
    [(2, ⟨0, 5, 0, 0⟩), (2, ⟨0, 9, 0, 5⟩), (1, ⟨0, 9, 0, 5⟩)] := by
  decide +kernel

end Listeners

end OverlayScrollbar
