import Mprpc.Client.Process
import Mprpc.Transition.KeyedWait

/-!
# Wake-ups in the pool

All threads wait on one condition variable, each for a connection to its own
address or for room below the limit.  `ReleaseConnection` adds a connection of
one address and wakes one thread of any; the sweep makes room and wakes nobody.
Apart from these two, no thread sleeps while it could go on.
-/

namespace Mprpc.Client

open Mprpc.Net
open Mprpc.Rpc
open Mprpc.Transition

universe u

namespace ClientState

variable {Msg : Type u}

/-- The addresses that calls are for. -/
def keys (s : ClientState Msg) : Finset Bytes :=
  (s.calls.map fun call => call.endpoint.key).toFinset

/-- The pool as a resource for its waiting threads. -/
def wait (s : ClientState Msg) : KeyedWait Bytes where
  slots := (s.pool.maxConnections - s.pool.curConnCount).toNat
  items key := (s.pool.queue key).length
  woken key := s.calls.countP fun call => call.pc.isNotified && call.endpoint.key == key
  asleep key := s.calls.countP fun call => call.pc.isBlocked && call.endpoint.key == key

/-- The calls between the push of `ReleaseConnection` and its `notify_one`. -/
def notifications (s : ClientState Msg) : Nat :=
  s.calls.countP fun call => call.pc.isNotifying

/-- No notified thread is still to resume, and no function of the pool is
between its update and its notification. -/
def Settled (s : ClientState Msg) : Prop :=
  s.calls.all fun call => !(call.pc.isNotified || call.pc.isNotifying)

instance (s : ClientState Msg) : Decidable s.Settled :=
  inferInstanceAs (Decidable (_ = true))

/-- `notify_one` wakes a thread that can go on after those already woken, or
no thread could. -/
def WakesReady (s : ClientState Msg) (woken : Option Nat) : Prop :=
  ∀ j ∈ woken, ∀ call ∈ s.calls[j]?, s.wait.Proceeds s.keys call.endpoint.key ∨
    ∀ key ∈ s.keys, 0 < s.wait.asleep key → ¬ s.wait.Proceeds s.keys key

instance (s : ClientState Msg) (woken : Option Nat) : Decidable (s.WakesReady woken) :=
  inferInstanceAs (Decidable (∀ j ∈ woken, ∀ call ∈ s.calls[j]?, _))

/-- Each notification reaches a thread that can use it, and no sweep closes a
connection while a thread sleeps. -/
def WakesRight (s : ClientState Msg) : ClientAction Msg → Prop
  | .connectFailed _ woken => { s with pool := s.pool.connectFailed }.WakesReady woken
  | .notify _ woken => s.WakesReady woken
  | .sweep delays =>
      (∀ key ∈ s.keys, s.wait.asleep key = 0) ∨
        (s.pool.cleanIdleConnections ⟨s.now, delays⟩).closed = []
  | _ => True

instance (s : ClientState Msg) : (action : ClientAction Msg) → Decidable (WakesRight s action)
  | .connectFailed _ woken =>
      inferInstanceAs (Decidable ({ s with pool := s.pool.connectFailed }.WakesReady woken))
  | .notify _ woken => inferInstanceAs (Decidable (s.WakesReady woken))
  | .sweep _ => inferInstanceAs (Decidable ((∀ key ∈ s.keys, _) ∨ _))
  | .spawn .. | .enter _ | .wakeSpuriously _ | .connected .. | .send .. | .sendError ..
  | .recv .. | .recvError .. | .release _ | .elapse _ | .deliver .. | .peerClose _ =>
      isTrue trivial

/-! ## How a step of one call changes the accounts -/

theorem key_mem_keys {s : ClientState Msg} {i : Nat} {call : Call Msg}
    (found : s.calls[i]? = some call) : call.endpoint.key ∈ s.keys :=
  List.mem_toFinset.mpr (List.mem_map.mpr ⟨call, List.mem_of_getElem? found, rfl⟩)

theorem keys_setCall {s : ClientState Msg} {i : Nat} {call : Call Msg} {pc : CallPc Msg}
    (found : s.calls[i]? = some call) : (s.setCall i { call with pc := pc }).keys = s.keys := by
  rcases List.getElem?_eq_some_iff.mp found with ⟨bound, rfl⟩
  have same : (s.calls.set i { s.calls[i] with pc := pc }).map (fun call => call.endpoint.key) =
      s.calls.map fun call => call.endpoint.key := by
    rw [List.map_set]
    apply List.ext_getElem?
    intro j
    by_cases here : i = j
    · subst here
      simp [bound]
    · simp [List.getElem?_set_ne here]
  unfold keys setCall
  rw [same]

/-- What a thread counts for while it is woken, asleep or about to notify. -/
theorem woken_setCall {s : ClientState Msg} {i : Nat} {call : Call Msg}
    (found : s.calls[i]? = some call) (pc : CallPc Msg) (key : Bytes) :
    (s.setCall i { call with pc := pc }).wait.woken key +
        (if call.pc.isNotified && call.endpoint.key == key then 1 else 0) =
      s.wait.woken key + if pc.isNotified && call.endpoint.key == key then 1 else 0 :=
  countP_setCall found _ _

theorem asleep_setCall {s : ClientState Msg} {i : Nat} {call : Call Msg}
    (found : s.calls[i]? = some call) (pc : CallPc Msg) (key : Bytes) :
    (s.setCall i { call with pc := pc }).wait.asleep key +
        (if call.pc.isBlocked && call.endpoint.key == key then 1 else 0) =
      s.wait.asleep key + if pc.isBlocked && call.endpoint.key == key then 1 else 0 :=
  countP_setCall found _ _

theorem notifications_setCall {s : ClientState Msg} {i : Nat} {call : Call Msg}
    (found : s.calls[i]? = some call) (pc : CallPc Msg) :
    (s.setCall i { call with pc := pc }).notifications +
        (if call.pc.isNotifying then 1 else 0) =
      s.notifications + if pc.isNotifying then 1 else 0 :=
  countP_setCall found _ _

/-- A step of one call, with whatever it does to its own queue, concerns its own
address only. -/
theorem agreeOff_move {s : ClientState Msg} {i : Nat} {call : Call Msg}
    (found : s.calls[i]? = some call) (pool : ConnectionPool) (pc : CallPc Msg)
    (others : ∀ other, other ≠ call.endpoint.key → pool.queue other = s.pool.queue other) :
    KeyedWait.AgreeOff call.endpoint.key s.wait
      ({ s with pool := pool }.setCall i { call with pc := pc }).wait := by
  intro other different
  have stillFound : { s with pool := pool }.calls[i]? = some call := found
  have woken := woken_setCall stillFound pc other
  have asleep := asleep_setCall stillFound pc other
  have off : (call.endpoint.key == other) = false := beq_false_of_ne (Ne.symm different)
  simp only [off, Bool.and_false, Bool.false_eq_true, if_false, Nat.add_zero] at woken asleep
  exact ⟨congrArg List.length (others other different), woken, asleep⟩

/-- The accounts at the call's own address. -/
theorem woken_move {s : ClientState Msg} {i : Nat} {call : Call Msg}
    (found : s.calls[i]? = some call) (pool : ConnectionPool) (pc : CallPc Msg) :
    ({ s with pool := pool }.setCall i { call with pc := pc }).wait.woken call.endpoint.key +
        (if call.pc.isNotified then 1 else 0) =
      s.wait.woken call.endpoint.key + if pc.isNotified then 1 else 0 := by
  have stillFound : { s with pool := pool }.calls[i]? = some call := found
  have counted := woken_setCall stillFound pc call.endpoint.key
  simp only [BEq.rfl, Bool.and_true] at counted
  exact counted

theorem asleep_move {s : ClientState Msg} {i : Nat} {call : Call Msg}
    (found : s.calls[i]? = some call) (pool : ConnectionPool) (pc : CallPc Msg) :
    ({ s with pool := pool }.setCall i { call with pc := pc }).wait.asleep call.endpoint.key +
        (if call.pc.isBlocked then 1 else 0) =
      s.wait.asleep call.endpoint.key + if pc.isBlocked then 1 else 0 := by
  have stillFound : { s with pool := pool }.calls[i]? = some call := found
  have counted := asleep_setCall stillFound pc call.endpoint.key
  simp only [BEq.rfl, Bool.and_true] at counted
  exact counted

/-- A thread that runs `getConnection` has just come or was woken. -/
theorem taker_move {s : ClientState Msg} {i : Nat} {call : Call Msg}
    (found : s.calls[i]? = some call) (awake : call.pc = .entering ∨ call.pc = .notified)
    (pool : ConnectionPool) (pc : CallPc Msg) (takes : pc.isNotified = false)
    (goesOn : pc.isBlocked = false) :
    (({ s with pool := pool }.setCall i { call with pc := pc }).wait.woken call.endpoint.key =
          s.wait.woken call.endpoint.key ∨
        ({ s with pool := pool }.setCall i { call with pc := pc }).wait.woken call.endpoint.key +
          1 = s.wait.woken call.endpoint.key) ∧
      ({ s with pool := pool }.setCall i { call with pc := pc }).wait.asleep call.endpoint.key =
        s.wait.asleep call.endpoint.key := by
  have woken := woken_move found pool pc
  have asleep := asleep_move found pool pc
  rw [takes] at woken
  rw [goesOn] at asleep
  rcases awake with entering | notified
  · rw [entering] at woken asleep
    exact ⟨.inl woken, asleep⟩
  · rw [notified] at woken asleep
    exact ⟨.inr woken, asleep⟩

/-- A step between program counters that neither sleep nor are woken. -/
theorem wait_setCall {s : ClientState Msg} {i : Nat} {call : Call Msg} {pc : CallPc Msg}
    (found : s.calls[i]? = some call)
    (before : (call.pc.isNotified || call.pc.isBlocked) = false)
    (after : (pc.isNotified || pc.isBlocked) = false) :
    (s.setCall i { call with pc := pc }).wait = s.wait := by
  rw [Bool.or_eq_false_iff] at before after
  have woken : (s.setCall i { call with pc := pc }).wait.woken = s.wait.woken := by
    funext key
    simpa [before.1, after.1] using woken_setCall found pc key
  have asleep : (s.setCall i { call with pc := pc }).wait.asleep = s.wait.asleep := by
    funext key
    simpa [before.2, after.2] using asleep_setCall found pc key
  calc
    (s.setCall i { call with pc := pc }).wait =
        ⟨s.wait.slots, s.wait.items, (s.setCall i { call with pc := pc }).wait.woken,
          (s.setCall i { call with pc := pc }).wait.asleep⟩ := rfl
    _ = s.wait := by rw [woken, asleep]

/-- Every unit that sleeping threads could use has a notification to come. -/
def Covered (s : ClientState Msg) : Prop :=
  s.wait.Covered s.keys s.notifications

/-- `notify_one` settles one notification. -/
theorem covered_notifyOne {s t : ClientState Msg} {woken : Option Nat}
    (covered : s.wait.Covered s.keys (s.notifications + 1)) (ready : s.WakesReady woken)
    (notified : s.notifyOne woken = some t) : t.Covered := by
  rcases notifyOne_eq_some notified with ⟨rfl, rfl, nobody⟩ | ⟨j, call, rfl, found, asleep, rfl⟩
  · rintro ⟨key, -, sleeps⟩
    rcases List.countP_pos_iff.mp sleeps with ⟨call, member, sleeping⟩
    have blocked := (Bool.and_eq_true_iff.mp sleeping).1
    exact absurd (CallPc.isBlocked_iff.mp blocked) (nobody call member)
  · have agree := agreeOff_move found s.pool .notified (fun _ _ => rfl)
    have wakes := woken_setCall found .notified call.endpoint.key
    have slept := asleep_setCall found .notified call.endpoint.key
    have tokens := notifications_setCall found .notified
    simp [asleep, CallPc.isNotified, CallPc.isBlocked, CallPc.isNotifying] at wakes slept tokens
    unfold Covered
    rw [keys_setCall found, tokens]
    exact KeyedWait.Covered.wake covered (key_mem_keys found) agree rfl rfl wakes slept
      (ready j rfl call found)

/-- A step of one call that concerns neither sleepers nor woken threads nor
notifications. -/
theorem Covered.bystander {s : ClientState Msg} (covered : s.Covered) {i : Nat} {call : Call Msg}
    {pc : CallPc Msg} (found : s.calls[i]? = some call)
    (before : (call.pc.isNotified || call.pc.isBlocked) = false)
    (after : (pc.isNotified || pc.isBlocked) = false)
    (silentBefore : call.pc.isNotifying = false)
    (silentAfter : pc.isNotifying = false) :
    (s.setCall i { call with pc := pc }).Covered := by
  have tokens := notifications_setCall found pc
  simp only [silentBefore, silentAfter, Bool.false_eq_true, if_false, Nat.add_zero] at tokens
  unfold Covered
  rw [wait_setCall found before after, keys_setCall found, tokens]
  exact covered

/-- The invariant after a step of one call, by its accounts. -/
theorem covered_of_move {s : ClientState Msg} {i : Nat} {call : Call Msg} {pool : ConnectionPool}
    {pc : CallPc Msg} (found : s.calls[i]? = some call) (later : Nat)
    (tokens : later + (if call.pc.isNotifying then 1 else 0) =
      s.notifications + if pc.isNotifying then 1 else 0)
    (covered : ({ s with pool := pool }.setCall i { call with pc := pc }).wait.Covered s.keys
      later) :
    ({ s with pool := pool }.setCall i { call with pc := pc }).Covered := by
  have stillFound : { s with pool := pool }.calls[i]? = some call := found
  have counted : ({ s with pool := pool }.setCall i { call with pc := pc }).notifications +
      (if call.pc.isNotifying then 1 else 0) =
        s.notifications + if pc.isNotifying then 1 else 0 :=
    notifications_setCall stillFound pc
  have same : ({ s with pool := pool }.setCall i { call with pc := pc }).notifications = later := by
    omega
  unfold Covered
  rw [same, keys_setCall stillFound]
  exact covered

/-- A thread that runs `getConnection` notifies nobody. -/
theorem tokens_of_awake {s : ClientState Msg} {call : Call Msg} {pc : CallPc Msg}
    (awake : call.pc = .entering ∨ call.pc = .notified) (silent : pc.isNotifying = false) :
    s.notifications + (if call.pc.isNotifying then 1 else 0) =
      s.notifications + if pc.isNotifying then 1 else 0 := by
  rw [silent]
  rcases awake with pc | pc
  · rw [pc]
    rfl
  · rw [pc]
    rfl

/-- Steps that nobody waits for. -/
theorem Covered.of_same {s t : ClientState Msg} (covered : s.Covered) (pool : t.pool = s.pool)
    (calls : t.calls = s.calls) : t.Covered := by
  have sameWait : t.wait = s.wait := by
    unfold wait
    rw [pool, calls]
  unfold Covered keys notifications at *
  rw [sameWait, calls]
  exact covered

/-- A new call neither sleeps nor was woken. -/
theorem Covered.spawn {s : ClientState Msg} (covered : s.Covered) (call : Call Msg)
    (notWoken : call.pc.isNotified = false) (notAsleep : call.pc.isBlocked = false)
    (silent : call.pc.isNotifying = false) : { s with calls := s.calls ++ [call] }.Covered := by
  have sameWait : { s with calls := s.calls ++ [call] }.wait = s.wait := by
    simp [wait, notWoken, notAsleep]
  have sameTokens : { s with calls := s.calls ++ [call] }.notifications = s.notifications := by
    simp [notifications, silent]
  unfold Covered
  rw [sameWait, sameTokens]
  apply KeyedWait.Covered.of_subset covered
  · intro key known
    simp only [keys, List.map_append, List.toFinset_append]
    exact Finset.mem_union_left _ known
  · intro key _ unknown
    have elsewhere : ∀ other ∈ s.calls, (other.endpoint.key == key) = false := by
      intro other member
      apply beq_false_of_ne
      rintro rfl
      exact unknown (List.mem_toFinset.mpr (List.mem_map.mpr ⟨other, member, rfl⟩))
    constructor
    · apply List.countP_eq_zero.mpr
      intro other member
      simp [elsewhere other member]
    · apply List.countP_eq_zero.mpr
      intro other member
      simp [elsewhere other member]

theorem WakesReady.setCall {s : ClientState Msg} {woken : Option Nat} (ready : s.WakesReady woken)
    {i : Nat} {call : Call Msg} {pc : CallPc Msg} (found : s.calls[i]? = some call)
    (before : (call.pc.isNotified || call.pc.isBlocked) = false)
    (after : (pc.isNotified || pc.isBlocked) = false) :
    (s.setCall i { call with pc := pc }).WakesReady woken := by
  intro j isWoken other foundOther
  rw [wait_setCall found before after, keys_setCall found]
  have lookup : (s.setCall i { call with pc := pc }).calls[j]? = some other := foundOther
  rw [getElem?_setCall found] at lookup
  split at lookup
  · rename_i same
    subst same
    cases lookup
    exact ready j isWoken call found
  · exact ready j isWoken other lookup

/-- A step that notifies rightly keeps every usable unit matched. -/
theorem Covered.of_stepped {s t : ClientState Msg} {action : ClientAction Msg}
    (covered : s.Covered) (allowed : WakesRight s action) (stepped : Stepped s action t) :
    t.Covered := by
  cases stepped with
  | spawn endpoint sendRpcStr output => exact covered.spawn _ rfl rfl rfl
  | @reused i call item rest found awake queued =>
      have accounts := taker_move found awake (s.pool.setQueue call.endpoint.key rest)
        (.sending item.fd) rfl rfl
      have agree := agreeOff_move found (s.pool.setQueue call.endpoint.key rest)
        (.sending item.fd) (fun other different => by
          rw [ConnectionPool.queue_setQueue, if_neg different])
      have items : ((s.pool.setQueue call.endpoint.key rest).queue call.endpoint.key).length + 1 =
          (s.pool.queue call.endpoint.key).length := by
        rw [ConnectionPool.queue_setQueue, if_pos rfl, queued, List.length_cons]
      apply covered_of_move found _ (tokens_of_awake awake rfl)
      exact KeyedWait.Covered.takeItem covered (key_mem_keys found) agree rfl items accounts.1
        accounts.2
  | @reserved i call found awake queued below =>
      have accounts := taker_move found awake
        { s.pool with curConnCount := s.pool.curConnCount + 1 } .connecting rfl rfl
      have agree := agreeOff_move found { s.pool with curConnCount := s.pool.curConnCount + 1 }
        .connecting (fun _ _ => rfl)
      have slots : (s.pool.maxConnections - (s.pool.curConnCount + 1)).toNat + 1 =
          (s.pool.maxConnections - s.pool.curConnCount).toNat := by
        omega
      have noItem : (s.pool.queue call.endpoint.key).length = 0 := congrArg List.length queued
      apply covered_of_move found _ (tokens_of_awake awake rfl)
      exact KeyedWait.Covered.takeSlot covered (key_mem_keys found) agree slots noItem noItem
        accounts.1 accounts.2
  | @waits i call found awake queued full =>
      have agree := agreeOff_move found s.pool .blocked (fun _ _ => rfl)
      have noSlot : (s.pool.maxConnections - s.pool.curConnCount).toNat = 0 := by
        omega
      have noItem : (s.pool.queue call.endpoint.key).length = 0 := congrArg List.length queued
      apply covered_of_move found _ (tokens_of_awake awake rfl)
      exact KeyedWait.Covered.sleep covered (key_mem_keys found) agree noSlot noItem noItem
  | @wokeSpuriously i call found asleep =>
      have agree := agreeOff_move found s.pool .notified (fun _ _ => rfl)
      have wakes := woken_move found s.pool .notified
      have slept := asleep_move found s.pool .notified
      rw [asleep] at wakes slept
      apply covered_of_move found s.notifications
      · rw [asleep]
        rfl
      · exact KeyedWait.Covered.wakeUnasked covered (key_mem_keys found) agree rfl rfl wakes slept
  | connected found connecting unused =>
      exact covered.bystander found (by rw [connecting]; rfl) rfl (by rw [connecting]; rfl) rfl
  | @connectFailed i call woken _ found connecting notified =>
      have stillFound : { s with pool := s.pool.connectFailed }.calls[i]? = some call := found
      have slots : (s.pool.maxConnections - (s.pool.curConnCount - 1)).toNat ≤
          (s.pool.maxConnections - s.pool.curConnCount).toNat + 1 := by
        omega
      have returned : { s with pool := s.pool.connectFailed }.wait.Covered s.keys
          (s.notifications + 1) :=
        KeyedWait.Covered.addSlot covered slots rfl rfl rfl
      have before : (call.pc.isNotified || call.pc.isBlocked) = false := by rw [connecting]; rfl
      have tokens := notifications_setCall stillFound (.finished .noConnection)
      simp only [connecting, CallPc.isNotifying, Bool.false_eq_true, if_false, Nat.add_zero]
        at tokens
      apply covered_notifyOne _ (WakesReady.setCall allowed stillFound before rfl) notified
      rw [wait_setCall stillFound before rfl, keys_setCall stillFound, tokens]
      exact returned
  | sent garbled found sending opened bound =>
      exact covered.bystander found (by rw [sending]; rfl) rfl (by rw [sending]; rfl) rfl
  | sendFailed errno found sending =>
      exact covered.bystander found (by rw [sending]; rfl) rfl (by rw [sending]; rfl) rfl
  | received found receiving opened ready =>
      exact covered.bystander found (by rw [receiving]; rfl) rfl (by rw [receiving]; rfl) rfl
  | recvFailed errno found receiving =>
      exact covered.bystander found (by rw [receiving]; rfl) rfl (by rw [receiving]; rfl) rfl
  | @released i call fd exit found releasing =>
      have agree := agreeOff_move found (s.pool.releaseConnection call.endpoint.key fd s.now)
        (.notifying exit) (fun other different => by
          rw [ConnectionPool.releaseConnection, ConnectionPool.queue_setQueue, if_neg different])
      have items : ((s.pool.releaseConnection call.endpoint.key fd s.now).queue
          call.endpoint.key).length = (s.pool.queue call.endpoint.key).length + 1 := by
        rw [ConnectionPool.releaseConnection, ConnectionPool.queue_setQueue, if_pos rfl,
          List.length_append, List.length_singleton]
      have woken := woken_move found (s.pool.releaseConnection call.endpoint.key fd s.now)
        (.notifying exit)
      have asleep := asleep_move found (s.pool.releaseConnection call.endpoint.key fd s.now)
        (.notifying exit)
      rw [releasing] at woken asleep
      apply covered_of_move found (s.notifications + 1)
      · rw [releasing]
        rfl
      · exact KeyedWait.Covered.addItem covered (key_mem_keys found) agree rfl items woken asleep
  | @notified i call exit woken _ found notifying notified =>
      have before : (call.pc.isNotified || call.pc.isBlocked) = false := by rw [notifying]; rfl
      have tokens := notifications_setCall found (.finished exit)
      simp only [notifying, CallPc.isNotifying, Bool.false_eq_true, if_true, if_false,
        Nat.add_zero] at tokens
      apply covered_notifyOne _ (WakesReady.setCall allowed found before rfl) notified
      rw [wait_setCall found before rfl, keys_setCall found, tokens]
      exact covered
  | @swept delays swept cleaned =>
      rcases allowed with nobody | nothing
      · rintro ⟨key, member, sleeps⟩
        exact absurd (nobody key member) (Nat.pos_iff_ne_zero.mp sleeps)
      · have kept := ConnectionPool.kept_eq_of_closed_nil nothing
        rw [cleaned] at kept
        exact covered.of_same kept rfl
  | elapsed time => exact covered.of_same rfl rfl
  | delivered opened arrived => exact covered.of_same rfl rfl
  | peerClosed opened => exact covered.of_same rfl rfl

theorem covered_start (maxConnections maxIdleTime : Int) :
    (start maxConnections maxIdleTime : ClientState Msg).Covered := by
  rintro ⟨key, member, -⟩
  cases List.mem_toFinset.mp member

/-- In every run whose notifications reach threads that can use them and whose
sweeps close nothing while a thread sleeps: when no notification is under way, no
thread sleeps although it could go on. -/
theorem no_lost_wakeup {maxConnections maxIdleTime : Int} {s : ClientState Msg}
    (reached : Reachable next WakesRight (start maxConnections maxIdleTime) s)
    (settled : s.Settled) :
    ∀ call ∈ s.calls, call.pc = .blocked → s.pool.ready call.endpoint.key = false := by
  have covered : s.Covered := by
    apply reached.invariant (covered_start maxConnections maxIdleTime)
    intro state action successor covered allowed step
    exact covered.of_stepped allowed (stepped_of_next step)
  have quiet : ∀ call ∈ s.calls, call.pc.isNotified = false ∧ call.pc.isNotifying = false := by
    intro call member
    have checked := List.all_eq_true.mp settled call member
    simpa using checked
  have noTokens : s.notifications = 0 := by
    apply List.countP_eq_zero.mpr
    intro call member
    simp [(quiet call member).2]
  have noneWoken : ∀ key ∈ s.keys, s.wait.woken key = 0 := by
    intro key _
    apply List.countP_eq_zero.mpr
    intro call member
    simp [(quiet call member).1]
  unfold Covered at covered
  rw [noTokens] at covered
  intro call member asleep
  have inKeys : call.endpoint.key ∈ s.keys :=
    List.mem_toFinset.mpr (List.mem_map.mpr ⟨call, member, rfl⟩)
  have sleeps : 0 < s.wait.asleep call.endpoint.key := by
    apply List.countP_pos_iff.mpr
    exact ⟨call, member, by simp [asleep, CallPc.isBlocked]⟩
  rcases covered.nothing_left inKeys sleeps noneWoken with ⟨noSlot, noItem⟩
  have full : ¬ s.pool.curConnCount < s.pool.maxConnections := by
    have slots : (s.pool.maxConnections - s.pool.curConnCount).toNat = 0 := noSlot
    omega
  have empty : s.pool.queue call.endpoint.key = [] := List.length_eq_zero_iff.mp noItem
  simp [ConnectionPool.ready, full, empty]

/-- `n` threads with a slot each, none of them connected yet. -/
def connectingCalls (pool : ConnectionPool) (n : Nat) : ClientState RpcHeader where
  pool := pool
  calls := List.replicate n ⟨localEndpoint, [1, 2], RpcHeader.codec, .connecting⟩

/-- One more thread takes a slot. -/
theorem run_connectingCalls {pool larger : ConnectionPool} (n : Nat)
    (reserved : pool.getConnection localEndpoint.key = .reserved larger) :
    run next (connectingCalls pool n) [spawnAt localEndpoint, .enter n] =
      some (connectingCalls larger (n + 1)) := by
  simp [run_cons, next, spawnAt, connectingCalls, getConnection, reserved, setCall,
    List.replicate_succ']

theorem getConnection_reserves {n : Nat} (bound : n < 5000) (key : Bytes) :
    ({ curConnCount := n } : ConnectionPool).getConnection key =
      .reserved { curConnCount := (n + 1 : Nat) } := by
  have below : (n : Int) < 5000 := by omega
  simp [ConnectionPool.getConnection, ConnectionPool.queue, ConnectionPool.ready, below]

/-- All slots of the pool can be in use. -/
theorem reachable_connectingCalls {n : Nat} (bound : n ≤ 5000) :
    Reachable next Unrestricted (start 5000 60) (connectingCalls { curConnCount := n } n) := by
  induction n with
  | zero => exact .refl
  | succ n inductionHypothesis =>
      exact (inductionHypothesis (Nat.le_of_succ_le bound)).trans
        (reachable_of_meets (Meets.unrestricted ..)
          (run_connectingCalls n (getConnection_reserves bound _)))

/-- Two threads wait, for different addresses.  A connection to the first one's
is released, `notify_one` picks the second, and the first sleeps on beside the
connection it waits for. -/
theorem wrong_thread_notified :
    ∃ s : ClientState RpcHeader, Reachable next Unrestricted (start 5000 60) s ∧ s.Settled ∧
      ∃ call ∈ s.calls, call.pc = .blocked ∧ s.pool.ready call.endpoint.key = true := by
  have evaluated : ∃ s ∈ run next (connectingCalls { curConnCount := 5000 } 5000)
      [spawnAt localEndpoint, .enter 5000, spawnAt otherEndpoint, .enter 5001,
      .connected 0 7, .send 0 2 [], .deliver 7 [10, 1, 97] true, .recv 0 3, .release 0,
      .notify 0 (some 5001), .enter 5001],
      s.Settled ∧ ∃ call ∈ s.calls[5000]?,
        call.pc.isBlocked = true ∧ s.pool.ready call.endpoint.key = true := by
    decide +kernel
  rcases evaluated with ⟨s, succeeds, settled, call, found, asleep, ready⟩
  refine ⟨s, ?_, settled, call, List.mem_of_getElem? found, CallPc.isBlocked_iff.mp asleep, ready⟩
  exact (reachable_connectingCalls (Nat.le_refl 5000)).trans
    (reachable_of_meets (Meets.unrestricted ..) succeeds)

/-- A released connection whose notification reaches a thread of its address;
another one sleeps on, rightly. -/
theorem right_thread_notified :
    ∃ s : ClientState RpcHeader, Reachable next WakesRight (start 1 60) s ∧
      (s.Settled ∧ ∃ call ∈ s.calls, call.pc.isBlocked = true) ∧
        ∀ call ∈ s.calls, call.pc = .blocked → s.pool.ready call.endpoint.key = false := by
  have run : ∃ s : ClientState RpcHeader, Reachable next WakesRight (start 1 60) s ∧
      (s.Settled ∧ ∃ call ∈ s.calls, call.pc.isBlocked = true) := by
    apply exists_reachable [spawnAt localEndpoint, .enter 0, spawnAt localEndpoint, .enter 1,
      spawnAt localEndpoint, .enter 2, .connected 0 7, .send 0 2 [], .deliver 7 [10, 1, 97] true,
      .recv 0 3, .release 0, .notify 0 (some 1), .enter 1]
    · decide +kernel
    · decide +kernel
  rcases run with ⟨s, reached, settled, sleeps⟩
  exact ⟨s, reached, ⟨settled, sleeps⟩, no_lost_wakeup reached settled⟩

end ClientState

end Mprpc.Client
