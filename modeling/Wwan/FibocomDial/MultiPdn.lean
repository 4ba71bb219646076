import Mathlib.Data.Int.Notation
import Mathlib.Data.List.Basic
import Wwan.Lib.Transition

/-!
# The dialers of `multi-pdn-manager`

The manager starts a `fibocom-dial` for an interface in a child process, which stores its pid in the
shared segment `connectPids` before it becomes the dialer; the manager itself only sets
`connectState`. It stops a dialer by a SIGINT to the pid it finds in the segment.

The child may be late, the entries of interfaces that were never connected hold what the segment
held before (zero in a new one, the pids of another run in one that was not destroyed), and on exit
the manager signals the entries below `qmap_num` whether or not they are connected, and no others.
The dialers are signalled as they should be (`signals_lawful`) where disconnections wait for the
child and the manager exits with exactly the interfaces below `qmap_num` connected.
-/

namespace Wwan.FibocomDial.MultiPdn

/-- `MAX_QMAP_NUM`. -/
def MAX_QMAP_NUM : ℤ := 8

/-- A process the manager has forked. -/
structure Dialer where
  pid : ℤ
  /-- The child has stored its pid. -/
  stored : Bool
  /-- The manager has sent it a SIGINT. -/
  signalled : Bool
  deriving DecidableEq

/-- A signal the manager has sent. -/
structure Kill where
  pid : ℤ
  /-- The pid was that of a dialer of the interface that had not been signalled. -/
  aimed : Bool
  deriving DecidableEq

/-- What there is about an interface. -/
structure Interface where
  /-- Its entry of `connectState`. -/
  connectState : Bool
  /-- Its entry of `connectPids`. -/
  connectPid : ℤ
  /-- The processes started for it, the latest first. -/
  dialers : List Dialer
  /-- The signals sent for it. -/
  kills : List Kill
  deriving DecidableEq

/-- The state of the manager and of the segment it shares with its children. -/
structure Manager where
  qmapNum : ℤ
  /-- The interfaces, counted from zero as in the arrays. -/
  interfaces : ℕ → Interface
  /-- `connectState` as it was when the manager came to its exit. -/
  exited : Option (ℕ → Bool)

/-- The dialer with this pid is signalled, if there is one that has not been. -/
def signal (pid : ℤ) : List Dialer → Option (List Dialer)
  | [] => none
  | d :: ds =>
    if d.pid = pid ∧ d.signalled = false then some ({ d with signalled := true } :: ds)
    else (signal pid ds).map (d :: ·)

namespace Interface

/-- `kill(connectPids[connectIndex - 1], SIGINT)` and `connectState[connectIndex - 1] = false`. -/
def kill (x : Interface) : Interface :=
  match signal x.connectPid x.dialers with
  | some ds =>
    { x with connectState := false, dialers := ds, kills := x.kills ++ [⟨x.connectPid, true⟩] }
  | none => { x with connectState := false, kills := x.kills ++ [⟨x.connectPid, false⟩] }

/-- The parent's part of a connection: a child with this pid is forked. -/
def fork (pid : ℤ) (x : Interface) : Interface :=
  { x with connectState := true, dialers := ⟨pid, false, false⟩ :: x.dialers }

/-- The child's part: the `k`-th process stores its pid. -/
def store (k : ℕ) (x : Interface) : Interface :=
  match x.dialers[k]? with
  | some d =>
    { x with connectPid := d.pid, dialers := x.dialers.set k { d with stored := true } }
  | none => x

end Interface

/-- What happens: the actions of the menu that touch this state with what the user enters and the
pid a fork returns, the delayed stores of the children, and SIGINT. -/
inductive Event
  | connect (connectIndex connectProfile pid : ℤ)
  | store (interface k : ℕ)
  | disconnect (connectIndex : ℤ)
  | reload (qmapNum : ℤ)
  | setMax (qmapNum : ℤ)
  | exit
  | sigint
  deriving DecidableEq

namespace Manager

/-- `connectIndex` is none of an interface. -/
def badIndex (s : Manager) (connectIndex : ℤ) : Bool :=
  connectIndex < 1 || connectIndex > s.qmapNum

/-- The entry of an interface changes. -/
def modify (s : Manager) (i : ℕ) (f : Interface → Interface) : Manager :=
  { s with interfaces := Function.update s.interfaces i (f (s.interfaces i)) }

/-- `startConnectCM`. -/
def startConnectCM (s : Manager) (connectIndex connectProfile pid : ℤ) : Manager :=
  if s.badIndex connectIndex then s
  else if connectProfile < 1 || connectProfile > 8 then s
  else if (s.interfaces (connectIndex - 1).toNat).connectState then s
  else s.modify (connectIndex - 1).toNat (·.fork pid)

/-- The fourth action of the menu. -/
def disconnect (s : Manager) (connectIndex : ℤ) : Manager :=
  if s.badIndex connectIndex then s
  else if (s.interfaces (connectIndex - 1).toNat).connectState = false then s
  else s.modify (connectIndex - 1).toNat Interface.kill

/-- `loadConfigFromIni`, where `get_qmap_num` returns `n`; what it reads of the profiles matters to
the command line of the dialers only. -/
def loadConfigFromIni (s : Manager) (n : ℤ) : Manager := { s with qmapNum := n }

/-- The ninth action of the menu. -/
def setMax (s : Manager) (tempQmap : ℤ) : Manager :=
  if tempQmap < 1 || tempQmap > MAX_QMAP_NUM then s else { s with qmapNum := tempQmap }

/-- The loop over the interfaces at `__main_exit`. -/
def killAll (s : Manager) : Manager :=
  (List.range s.qmapNum.toNat).foldl (fun s i ↦ s.modify i Interface.kill) s

/-- `__main_exit`, and `SIGINT_handle`, which does the same. -/
def mainExit (s : Manager) : Manager :=
  { s.killAll with exited := some fun i ↦ (s.interfaces i).connectState }

/-- The state after an event. -/
def next (s : Manager) : Event → Manager
  | .connect connectIndex connectProfile pid => s.startConnectCM connectIndex connectProfile pid
  | .store i k => s.modify i (Interface.store k)
  | .disconnect connectIndex => s.disconnect connectIndex
  | .reload n => s.loadConfigFromIni n
  | .setMax n => s.setMax n
  | .exit => s.mainExit
  | .sigint => s.mainExit

/-- A fork returns a positive pid, `get_qmap_num` no more than the arrays hold. A child stores its
pid once, also when the manager has gone; nothing else happens then. -/
def enabled (s : Manager) : Event → Prop
  | .connect _ _ pid => s.exited = none ∧ 0 < pid
  | .store i k => ∃ d, (s.interfaces i).dialers[k]? = some d ∧ d.stored = false
  | .reload n => s.exited = none ∧ n ≤ MAX_QMAP_NUM
  | _ => s.exited = none

/-- The manager when it comes to its menu: the segment holds what it held before. -/
def init (qmapNum : ℤ) (connectPids : ℕ → ℤ) : Manager :=
  ⟨qmapNum, fun i ↦ ⟨false, connectPids i, [], []⟩, none⟩

end Manager

/-- The runs of a manager. -/
def system (qmapNum : ℤ) (connectPids : ℕ → ℤ) : System Manager Event :=
  ⟨.init qmapNum connectPids, Manager.enabled, Manager.next⟩

/-! ## What is to hold -/

/-- Every signal was aimed at a dialer of its interface that had not been signalled before, and when
the manager has exited, the dialers of each interface that was connected have been signalled. -/
structure Lawful (s : Manager) : Prop where
  aimed : ∀ i, ∀ k ∈ (s.interfaces i).kills, k.aimed = true ∧ 0 < k.pid
  signalled : ∀ c, s.exited = some c → ∀ i, c i = true →
    (s.interfaces i).dialers ≠ [] ∧ ∀ d ∈ (s.interfaces i).dialers, d.signalled = true

/-- The children started for the interface have stored their pids. -/
def Interface.Stored (x : Interface) : Prop := ∀ d ∈ x.dialers, d.stored = true

/-- The interfaces that can be connected are, with their pids stored, and no others. -/
def Manager.AllConnected (s : Manager) : Prop :=
  ∀ i, if i < s.qmapNum.toNat then (s.interfaces i).connectState = true ∧ (s.interfaces i).Stored
    else (s.interfaces i).connectState = false

/-- Nobody disconnects an interface before its child has stored its pid, nor leaves the manager
unless exactly the interfaces below `qmap_num` are connected, with their pids stored. -/
def Orderly (s : Manager) : Event → Prop
  | .disconnect connectIndex =>
    s.badIndex connectIndex = false → (s.interfaces (connectIndex - 1).toNat).Stored
  | .exit => s.AllConnected
  | .sigint => s.AllConnected
  | _ => True

/-! ## An interface -/

/-- The child has stored its pid and has been signalled. -/
def Dialer.Done (d : Dialer) : Prop := d.stored = true ∧ d.signalled = true

/-- The flag of an interface says whether its last process is still to be signalled; once that has
stored its pid, the segment holds it. -/
structure Interface.Tracked (x : Interface) : Prop where
  idle : x.connectState = false → ∀ d ∈ x.dialers, d.Done
  connected : x.connectState = true → ∃ d ds, x.dialers = d :: ds ∧ d.signalled = false ∧
    (d.stored = true → x.connectPid = d.pid) ∧ ∀ d ∈ ds, d.Done
  forked : ∀ d ∈ x.dialers, 0 < d.pid
  aimed : ∀ k ∈ x.kills, k.aimed = true ∧ 0 < k.pid

namespace Interface.Tracked

variable {x : Interface}

/-- A connection that was not there. -/
theorem fork (h : x.Tracked) (hidle : x.connectState = false) {pid : ℤ} (hpid : 0 < pid) :
    (x.fork pid).Tracked where
  idle hc := by cases hc
  connected _ := ⟨⟨pid, false, false⟩, x.dialers, rfl, rfl, by rintro ⟨⟩, h.idle hidle⟩
  forked d hd := by
    rcases List.mem_cons.mp hd with rfl | hd
    · exact hpid
    · exact h.forked d hd
  aimed := h.aimed

/-- Only the last process can be late with its pid. -/
theorem store (h : x.Tracked) {k : ℕ} {d : Dialer} (hd : x.dialers[k]? = some d)
    (hlate : d.stored = false) : (x.store k).Tracked := by
  have hmem : d ∈ x.dialers := List.mem_of_getElem? hd
  have hnotDone : ¬ d.Done := by
    rintro ⟨hstored, -⟩
    rw [hlate] at hstored
    cases hstored
  cases hc : x.connectState with
  | false => exact absurd (h.idle hc d hmem) hnotDone
  | true =>
    obtain ⟨last, ds, hdialers, hsignalled, -, hdone⟩ := h.connected hc
    rw [hdialers] at hd
    cases k with
    | succ k => exact absurd (hdone d (List.mem_of_getElem? hd)) hnotDone
    | zero =>
      obtain rfl : last = d := Option.some.inj hd
      have hstore : x.store 0 =
          { x with connectPid := last.pid, dialers := { last with stored := true } :: ds } := by
        rw [Interface.store, hdialers]
        rfl
      rw [hstore]
      refine ⟨fun hidle ↦ ?_, fun _ ↦ ⟨_, ds, rfl, hsignalled, fun _ ↦ rfl, hdone⟩, ?_, h.aimed⟩
      · rw [hc] at hidle
        cases hidle
      · intro d hd
        rcases List.mem_cons.mp hd with rfl | hd
        · exact h.forked last hmem
        · exact h.forked d (by
            rw [hdialers]
            exact List.mem_cons_of_mem _ hd)

/-- The signal for a connected interface whose child has stored its pid. -/
theorem kill (h : x.Tracked) (hc : x.connectState = true) (hstored : x.Stored) :
    x.kill.Tracked ∧ x.kill.connectState = false ∧ x.kill.dialers ≠ [] := by
  obtain ⟨d, ds, hdialers, hsignalled, hpid, hdone⟩ := h.connected hc
  have hd : d ∈ x.dialers := by
    rw [hdialers]
    exact List.mem_cons_self
  have hkill : x.kill =
      { x with
        connectState := false
        dialers := { d with signalled := true } :: ds
        kills := x.kills ++ [⟨x.connectPid, true⟩] } := by
    rw [Interface.kill, hdialers, signal, if_pos ⟨(hpid (hstored d hd)).symm, hsignalled⟩]
  have hdone' : ∀ d' ∈ ({ d with signalled := true } :: ds), Dialer.Done d' := by
    intro d' hd'
    rcases List.mem_cons.mp hd' with rfl | hd'
    · exact ⟨hstored d hd, rfl⟩
    · exact hdone d' hd'
  rw [hkill]
  refine ⟨⟨fun _ ↦ hdone', ?_, ?_, ?_⟩, rfl, List.cons_ne_nil _ _⟩
  · rintro ⟨⟩
  · intro d' hd'
    rcases List.mem_cons.mp hd' with rfl | hd'
    · exact h.forked d hd
    · exact h.forked d' (by
        rw [hdialers]
        exact List.mem_cons_of_mem _ hd')
  · intro k hk
    rcases List.mem_append.mp hk with hk | hk
    · exact h.aimed k hk
    · obtain rfl := List.mem_singleton.mp hk
      exact ⟨rfl, by
        rw [hpid (hstored d hd)]
        exact h.forked d hd⟩

end Interface.Tracked

/-! ## Runs -/

/-- The interfaces are tracked, and none is connected when the manager has gone. -/
structure Manager.Tracked (s : Manager) : Prop where
  interfaces : ∀ i, (s.interfaces i).Tracked
  idle : s.exited ≠ none → ∀ i, (s.interfaces i).connectState = false
  started : ∀ c, s.exited = some c → ∀ i, c i = true → (s.interfaces i).dialers ≠ []

namespace Manager

variable {s : Manager}

theorem modify_interfaces_self (s : Manager) (i : ℕ) (f : Interface → Interface) :
    (s.modify i f).interfaces i = f (s.interfaces i) := Function.update_self i _ _

theorem modify_interfaces_of_ne (s : Manager) {i j : ℕ} (hj : j ≠ i) (f : Interface → Interface) :
    (s.modify i f).interfaces j = s.interfaces j := Function.update_of_ne hj _ _

/-- Each interface below `qmap_num` is signalled once. -/
theorem killAll_interfaces (s : Manager) (i : ℕ) : s.killAll.interfaces i =
    if i < s.qmapNum.toNat then (s.interfaces i).kill else s.interfaces i := by
  unfold killAll
  induction s.qmapNum.toNat with
  | zero => rfl
  | succ n ih =>
    rw [List.range_succ, List.foldl_append, List.foldl_cons, List.foldl_nil]
    by_cases hi : i = n
    · subst hi
      rw [modify_interfaces_self, ih, if_neg (Nat.lt_irrefl i), if_pos (Nat.lt_succ_self i)]
    · rw [modify_interfaces_of_ne _ hi, ih]
      simp only [Nat.lt_succ_iff_lt_or_eq, hi, or_false]

namespace Tracked

variable (h : s.Tracked)

include h

/-- A step of one interface while the manager runs. -/
theorem modify (hrun : s.exited = none) {i : ℕ} {f : Interface → Interface}
    (hf : (f (s.interfaces i)).Tracked) : (s.modify i f).Tracked where
  interfaces j := by
    by_cases hj : j = i
    · subst hj
      rw [modify_interfaces_self]
      exact hf
    · rw [modify_interfaces_of_ne s hj]
      exact h.interfaces j
  idle hexited := absurd hrun hexited
  started c hc := by
    rw [show s.exited = some c from hc] at hrun
    cases hrun

/-- A child that is late with its pid belongs to a manager that runs. -/
theorem running {i k : ℕ} {d : Dialer}
    (hd : (s.interfaces i).dialers[k]? = some d) (hlate : d.stored = false) : s.exited = none := by
  by_contra hexited
  obtain ⟨hstored, -⟩ := (h.interfaces i).idle (h.idle hexited i) d (List.mem_of_getElem? hd)
  rw [hlate] at hstored
  cases hstored

theorem mainExit (hall : s.AllConnected) : s.mainExit.Tracked := by
  have hkilled : ∀ i, (s.killAll.interfaces i).Tracked ∧
      (s.killAll.interfaces i).connectState = false ∧
      ((s.interfaces i).connectState = true → (s.killAll.interfaces i).dialers ≠ []) := by
    intro i
    have hi := hall i
    rw [killAll_interfaces]
    split
    next hlt =>
      rw [if_pos hlt] at hi
      obtain ⟨htracked, hidle, hstarted⟩ := (h.interfaces i).kill hi.1 hi.2
      exact ⟨htracked, hidle, fun _ ↦ hstarted⟩
    next hge =>
      rw [if_neg hge] at hi
      refine ⟨h.interfaces i, hi, fun hc ↦ ?_⟩
      rw [hi] at hc
      cases hc
  refine ⟨fun i ↦ (hkilled i).1, fun _ i ↦ (hkilled i).2.1, ?_⟩
  rintro c hc i hci
  obtain rfl := Option.some.inj hc
  exact (hkilled i).2.2 hci

/-- What each event keeps. -/
theorem next {e : Event} (henabled : s.enabled e) (horderly : Orderly s e) :
    (s.next e).Tracked := by
  cases e with
  | connect connectIndex connectProfile pid =>
    obtain ⟨hrun, hpid⟩ := henabled
    show (s.startConnectCM connectIndex connectProfile pid).Tracked
    unfold startConnectCM
    split_ifs with hindex hprofile hc
    · exact h
    · exact h
    · exact h
    · exact h.modify hrun ((h.interfaces _).fork (Bool.eq_false_iff.mpr hc) hpid)
  | store i k =>
    obtain ⟨d, hd, hlate⟩ := henabled
    exact h.modify (h.running hd hlate) ((h.interfaces i).store hd hlate)
  | disconnect connectIndex =>
    show (s.disconnect connectIndex).Tracked
    unfold disconnect
    split_ifs with hindex hc
    · exact h
    · exact h
    · have hstored := horderly (Bool.eq_false_iff.mpr hindex)
      exact h.modify henabled ((h.interfaces _).kill (eq_true_of_ne_false hc) hstored).1
  | reload n => exact ⟨h.interfaces, h.idle, h.started⟩
  | setMax n =>
    show (s.setMax n).Tracked
    unfold setMax
    split
    · exact h
    · exact ⟨h.interfaces, h.idle, h.started⟩
  | exit => exact h.mainExit horderly
  | sigint => exact h.mainExit horderly

theorem lawful : Lawful s where
  aimed i := (h.interfaces i).aimed
  signalled c hc i hci := by
    have hidle := h.idle (by
      rw [hc]
      exact Option.some_ne_none c) i
    exact ⟨h.started c hc i hci, fun d hd ↦ ((h.interfaces i).idle hidle d hd).2⟩

end Tracked

end Manager

variable {qmapNum : ℤ} {connectPids : ℕ → ℤ} {s : Manager}

/-- In every orderly run the dialers are signalled as they should be. -/
theorem signals_lawful (hs : (system qmapNum connectPids).Reach Orderly s) : Lawful s := by
  have htracked : s.Tracked := by
    refine hs.invariant ⟨fun i ↦ ?_, ?_, ?_⟩ fun s e h henabled horderly ↦ h.next henabled horderly
    · refine ⟨?_, ?_, ?_, ?_⟩
      · rintro - d ⟨⟩
      · rintro ⟨⟩
      · rintro d ⟨⟩
      · rintro k ⟨⟩
    · intro hexited
      exact absurd rfl hexited
    · rintro c ⟨⟩
  exact htracked.lawful

instance (x : Interface) : Decidable x.Stored := inferInstanceAs (Decidable (∀ d ∈ x.dialers, _))

/-- The first of two interfaces is connected again, and the manager exits when both are. -/
def reconnected : List Event :=
  [.connect 1 1 100, .store 0 0, .disconnect 1, .connect 2 2 200, .connect 1 1 300, .store 1 0,
    .store 0 0, .exit]

/-- Each dialer gets its signal. -/
theorem signals_lawful_reconnected :
    let S := system 2 fun _ ↦ 0
    let s := S.exec S.init reconnected
    S.Reach Orderly s ∧ Lawful s ∧ (s.interfaces 0).kills = [⟨100, true⟩, ⟨300, true⟩] ∧
      (s.interfaces 1).kills = [⟨200, true⟩] := by
  intro S s
  have hs : S.Reach Orderly s := by
    refine System.Reach.init.exec ⟨⟨rfl, by decide⟩, trivial, ⟨_, rfl, rfl⟩, trivial, rfl,
      fun _ ↦ by decide, ⟨rfl, by decide⟩, trivial, ⟨rfl, by decide⟩, trivial, ⟨_, rfl, rfl⟩,
      trivial, ⟨_, rfl, rfl⟩, trivial, rfl, ?_, trivial⟩
    intro i
    match i with
    | 0 => exact ⟨rfl, by decide⟩
    | 1 => exact ⟨rfl, by decide⟩
    | i + 2 => rfl
  exact ⟨hs, signals_lawful hs, by decide, by decide⟩

/-- One of four interfaces is connected when the user presses the key for SIGINT: the manager also
sends signals to the pids it reads in the other three entries, which are zero. -/
theorem signals_astray :
    ¬ ∀ (qmapNum : ℤ) (connectPids : ℕ → ℤ) (s : Manager),
      (system qmapNum connectPids).Reach (fun _ _ ↦ True) s → Lawful s := by
  intro h
  have hs : (system 4 fun _ ↦ 0).Along (fun _ _ ↦ True) (.init 4 fun _ ↦ 0)
      [.connect 1 1 100, .store 0 0, .sigint] :=
    ⟨⟨rfl, by decide⟩, trivial, ⟨_, rfl, rfl⟩, trivial, rfl, trivial, trivial⟩
  have hlawful := h 4 (fun _ ↦ 0) _ (System.Reach.init.exec hs)
  have haimed := hlawful.aimed 1 ⟨0, false⟩ (by decide)
  cases haimed.1

end Wwan.FibocomDial.MultiPdn
