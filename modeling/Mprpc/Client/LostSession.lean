import Mprpc.Client.RouteCache

/-!
# A client that has lost ZooKeeper

The session of the client is opened once.  When it expires, `global_watcher` and
`ZkChildWatcher` ignore the event, nothing opens another one, and every
`zoo_wget_children` from then on fails.  The routes that are cached stay as they are,
and methods that are not cached cannot be called any more, whatever providers do.
-/

namespace Mprpc.Client

open Mprpc.Transition

namespace RouteState

/-- No listing of children succeeds. -/
def Lost (_ : RouteState) : RouteAction → Prop
  | .fetch _ reached => reached = false
  | .refetch reached => reached = false
  | _ => True

instance (s : RouteState) : (action : RouteAction) → Decidable (s.Lost action)
  | .fetch _ reached => inferInstanceAs (Decidable (reached = false))
  | .refetch reached => inferInstanceAs (Decidable (reached = false))
  | .call _ => isTrue trivial
  | .lookup _ => isTrue trivial
  | .store _ => isTrue trivial
  | .provide _ _ => isTrue trivial
  | .sessionEvent => isTrue trivial
  | .deliver => isTrue trivial
  | .update => isTrue trivial

/-- Where a call of the path may stand that came after the loss: on a miss nothing
is cached, it never has a ring to write, and it ends as a call whose listing fails. -/
def Stranded (hash : Bytes → UInt32) (methodPath : Bytes) (cached : Option ConsistentHash) :
    RoutePc → Prop
  | .looking => True
  | .fetching => cached = none
  | .storing _ => False
  | .done route => route = lookupRoute hash methodPath cached none

/-- What holds of a path after the loss, with the ring that was cached then and the
number of calls that had come. -/
structure Frozen (hash : Bytes → UInt32) (methodPath : Bytes) (cached : Option ConsistentHash)
    (calls : Nat) (s : RouteState) : Prop where
  cache : s.routeCache.lookup methodPath = cached
  settled : ∀ ch, ch ∉ s.beingWritten methodPath
  stranded : ∀ i pc, calls ≤ i → s.callers[i]? = some ⟨methodPath, pc⟩ →
    Stranded hash methodPath cached pc

variable {hash : Bytes → UInt32} {methodPath : Bytes} {cached : Option ConsistentHash}
  {calls : Nat} {s t : RouteState}

/-- A caller moves on without a ring to write. -/
theorem Frozen.move (frozen : Frozen hash methodPath cached calls s) {i : Nat} {path : Bytes}
    {before after : RoutePc} (found : s.callers[i]? = some ⟨path, before⟩)
    (nothing : ∀ ch, after ≠ .storing ch)
    (stranded : path = methodPath → calls ≤ i → Stranded hash methodPath cached after) :
    Frozen hash methodPath cached calls (s.setCaller i ⟨path, after⟩) := by
  refine ⟨frozen.cache, ?_, ?_⟩
  · intro ch written
    apply frozen.settled ch
    rcases mem_beingWritten.mp written with updating | storing
    · exact mem_beingWritten.mpr (.inl updating)
    · rcases List.mem_or_eq_of_mem_set storing with member | same
      · exact mem_beingWritten.mpr (.inr member)
      · cases same
        exact absurd rfl (nothing ch)
  · intro j pc late foundLater
    rw [setCaller, getElem?_set_eq_ite found] at foundLater
    by_cases same : j = i
    · rw [if_pos same] at foundLater
      cases foundLater
      exact stranded rfl (same ▸ late)
    · rw [if_neg same] at foundLater
      exact frozen.stranded j pc late foundLater

/-- A ring of another path is written. -/
theorem Frozen.write (frozen : Frozen hash methodPath cached calls s) {path : Bytes}
    (another : methodPath ≠ path) (ch : ConsistentHash) :
    Frozen hash methodPath cached calls (s.write path ch) :=
  ⟨(AssocMap.lookup_set_of_ne another _ _).trans frozen.cache, frozen.settled, frozen.stranded⟩

/-- The watcher stops, or lists the children of another event. -/
theorem Frozen.setWatcher (frozen : Frozen hash methodPath cached calls s)
    {watcher : Option Watcher} (nothing : ∀ path ch, watcher ≠ some (.updating path ch)) :
    Frozen hash methodPath cached calls (s.setWatcher watcher) := by
  refine ⟨frozen.cache, fun ch written => ?_, frozen.stranded⟩
  rcases mem_beingWritten.mp written with updating | storing
  · exact absurd updating (nothing methodPath ch)
  · exact frozen.settled ch (mem_beingWritten.mpr (.inr storing))

theorem Frozen.of_next (frozen : Frozen hash methodPath cached calls s) {action : RouteAction}
    (lost : s.Lost action) (step : s.next hash action = some t) :
    Frozen hash methodPath cached calls t := by
  cases action with
  | call path =>
      cases step
      refine ⟨frozen.cache, ?_, ?_⟩
      · intro ch written
        apply frozen.settled ch
        rcases mem_beingWritten.mp written with updating | storing
        · exact mem_beingWritten.mpr (.inl updating)
        · rcases List.mem_append.mp storing with member | isNew
          · exact mem_beingWritten.mpr (.inr member)
          · cases List.mem_singleton.mp isNew
      · intro i pc late found
        rw [List.getElem?_append] at found
        split at found
        · exact frozen.stranded i pc late found
        · cases List.mem_singleton.mp (List.mem_of_getElem? found)
          trivial
  | lookup i =>
      rcases Option.bind_eq_some_iff.mp step with ⟨⟨path, pc⟩, found, step⟩
      cases pc with
      | looking =>
          cases step
          unfold lookedUp
          cases hit : s.routeCache.lookup path with
          | some ch =>
              apply frozen.move found
              · intro other storing
                cases storing
              · rintro rfl _
                rw [frozen.cache] at hit
                rw [Stranded, hit]
                rfl
          | none =>
              apply frozen.move found
              · intro other storing
                cases storing
              · rintro rfl _
                exact frozen.cache.symm.trans hit
      | fetching => cases step
      | storing ch => cases step
      | done route => cases step
  | fetch i reached =>
      replace lost : reached = false := lost
      subst lost
      rcases Option.bind_eq_some_iff.mp step with ⟨⟨path, pc⟩, found, step⟩
      cases pc with
      | fetching =>
          cases step
          apply frozen.move found
          · intro other storing
            cases storing
          · rintro rfl late
            have missed : cached = none := frozen.stranded i _ late found
            rw [Stranded, missed]
            rfl
      | looking => cases step
      | storing ch => cases step
      | done route => cases step
  | store i =>
      rcases Option.bind_eq_some_iff.mp step with ⟨⟨path, pc⟩, found, step⟩
      cases pc with
      | storing ch =>
          cases step
          have another : methodPath ≠ path := by
            rintro rfl
            exact frozen.settled ch (mem_beingWritten.mpr (.inr (List.mem_of_getElem? found)))
          apply (frozen.write another ch).move found
          · intro other storing
            cases storing
          · exact fun same => absurd same.symm another
      | looking => cases step
      | fetching => cases step
      | done route => cases step
  | provide path hosts =>
      cases step
      exact ⟨frozen.cache, frozen.settled, frozen.stranded⟩
  | sessionEvent =>
      cases step
      exact ⟨frozen.cache, frozen.settled, frozen.stranded⟩
  | deliver =>
      replace step : s.nextEvent = some t := step
      unfold nextEvent at step
      split at step
      · rename_i path events idle queued
        cases step
        have running : Frozen hash methodPath cached calls
            (s.setWatcher (some (.fetching path))) := frozen.setWatcher (by simp)
        exact ⟨running.cache, running.settled, running.stranded⟩
      · cases step
        exact ⟨frozen.cache, frozen.settled, frozen.stranded⟩
      · cases step
  | refetch reached =>
      replace lost : reached = false := lost
      subst lost
      rcases Option.bind_eq_some_iff.mp step with ⟨watcher, running, step⟩
      cases watcher with
      | updating path newCh => cases step
      | fetching path =>
          cases step
          exact frozen.setWatcher (by simp)
  | update =>
      rcases Option.bind_eq_some_iff.mp step with ⟨watcher, running, step⟩
      cases watcher with
      | fetching path => cases step
      | updating path newCh =>
          cases step
          have another : methodPath ≠ path := by
            rintro rfl
            exact frozen.settled newCh (mem_beingWritten.mpr (.inl running))
          exact (frozen.write another newCh).setWatcher (by simp)

end RouteState

end Mprpc.Client
