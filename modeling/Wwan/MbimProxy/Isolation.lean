import Wwan.MbimProxy.Loop

/-!
# A client that ends

While the program is in `proxy_loop`, the descriptors of the device, of the server socket and of
the clients are open and different. So the end of a client is about one slot only, and closing
it leaves everything else as it was; but only `poll` gets that far.
-/

namespace Wwan.MbimProxy

open Wwan

/-! ## The descriptors of the loop -/

/-- What holds while the program is in `proxy_loop`. -/
structure LoopInv (s : Daemon) : Prop where
  dev : 0 < s.mbimDevFd ∧ s.mbimDevFd ∈ s.fds
  server : 0 ≤ s.mbimServerFd → s.mbimServerFd ∈ s.fds
  opened : ∀ i, 0 < (s.clients i).clientFd → (s.clients i).clientFd ∈ s.fds
  ne_dev : ∀ i, 0 < (s.clients i).clientFd → (s.clients i).clientFd ≠ s.mbimDevFd
  ne_server : ∀ i, 0 < (s.clients i).clientFd → (s.clients i).clientFd ≠ s.mbimServerFd
  server_ne_dev : s.mbimServerFd ≠ s.mbimDevFd
  inj : ∀ i j, 0 < (s.clients i).clientFd →
    (s.clients j).clientFd = (s.clients i).clientFd → j = i

section Steps

variable {s : Daemon} {i : Fin cmMaxClient} {fd : ℤ}

variable (h : LoopInv s)

include h

/-- A loop over the descriptors stops at the slot of the client. -/
theorem LoopInv.findSlot_fd (hi : 0 < (s.clients i).clientFd) :
    findSlot s.clients (·.clientFd = (s.clients i).clientFd) = some i :=
  findSlot_of_unique (decide_eq_true rfl) fun j hj ↦ h.inj i j hi (of_decide_eq_true hj)

/-- A client is closed in its slot, and nowhere else. -/
theorem LoopInv.clientDisconnect_eq (hi : 0 < (s.clients i).clientFd) :
    s.clientDisconnect (s.clients i).clientFd =
      { s with
        clients := Function.update s.clients i { s.clients i with clientFd := -1 }
        fds := s.fds.erase (s.clients i).clientFd } := by
  unfold Daemon.clientDisconnect handleClientDisconnect safeClosed
  rw [h.findSlot_fd hi]
  simp only [if_pos hi]

theorem LoopInv.proceed (rest : List ℤ) : LoopInv (s.proceed rest) :=
  ⟨h.dev, h.server, h.opened, h.ne_dev, h.ne_server, h.server_ne_dev, h.inj⟩

theorem LoopInv.clientRequest (req : MbimMessage) : LoopInv (s.clientRequest fd req) := by
  unfold Daemon.clientRequest
  split
  · exact h
  · exact ⟨h.dev, h.server, h.opened, h.ne_dev, h.ne_server, h.server_ne_dev, h.inj⟩
  · exact ⟨h.dev, h.server, h.opened, h.ne_dev, h.ne_server, h.server_ne_dev, h.inj⟩

theorem LoopInv.deviceResponse (rsp : MbimMessage) : LoopInv (s.deviceResponse rsp) :=
  ⟨h.dev, h.server, h.opened, h.ne_dev, h.ne_server, h.server_ne_dev, h.inj⟩

/-- A slot whose descriptor changes to one that is new, or to none. -/
theorem LoopInv.update {client : CmClient} {fds : Finset ℤ}
    (hdev : s.mbimDevFd ∈ fds) (hserver : 0 ≤ s.mbimServerFd → s.mbimServerFd ∈ fds)
    (hothers : ∀ j, j ≠ i → 0 < (s.clients j).clientFd → (s.clients j).clientFd ∈ fds)
    (hnew : 0 < client.clientFd → client.clientFd ∈ fds ∧ client.clientFd ≠ s.mbimDevFd ∧
      client.clientFd ≠ s.mbimServerFd ∧
        ∀ j, j ≠ i → (s.clients j).clientFd ≠ client.clientFd) :
    LoopInv { s with clients := Function.update s.clients i client, fds := fds } := by
  refine ⟨⟨h.dev.1, hdev⟩, hserver, ?_, ?_, ?_, h.server_ne_dev, ?_⟩
  · intro j hj
    obtain rfl | hne := eq_or_ne j i
    · simp only [Function.update_self] at hj ⊢
      exact (hnew hj).1
    · simp only [Function.update_of_ne hne] at hj ⊢
      exact hothers j hne hj
  · intro j hj
    obtain rfl | hne := eq_or_ne j i
    · simp only [Function.update_self] at hj ⊢
      exact (hnew hj).2.1
    · simp only [Function.update_of_ne hne] at hj ⊢
      exact h.ne_dev j hj
  · intro j hj
    obtain rfl | hne := eq_or_ne j i
    · simp only [Function.update_self] at hj ⊢
      exact (hnew hj).2.2.1
    · simp only [Function.update_of_ne hne] at hj ⊢
      exact h.ne_server j hj
  · intro j k hj heq
    obtain rfl | hjne := eq_or_ne j i
    · obtain rfl | hkne := eq_or_ne k j
      · rfl
      · simp only [Function.update_self, Function.update_of_ne hkne] at hj heq
        exact absurd heq ((hnew hj).2.2.2 k hkne)
    · obtain rfl | hkne := eq_or_ne k i
      · simp only [Function.update_self, Function.update_of_ne hjne] at hj heq
        exact absurd heq.symm ((hnew (heq ▸ hj)).2.2.2 j hjne)
      · simp only [Function.update_of_ne hjne, Function.update_of_ne hkne] at hj heq
        exact h.inj j k hj heq

theorem LoopInv.clientDisconnect : LoopInv (s.clientDisconnect fd) := by
  cases hfind : findSlot s.clients (·.clientFd = fd) with
  | none =>
    unfold Daemon.clientDisconnect
    rw [hfind]
    exact h
  | some i =>
    have hfd : (s.clients i).clientFd = fd := of_decide_eq_true (of_findSlot hfind)
    subst hfd
    by_cases hi : 0 < (s.clients i).clientFd
    · rw [h.clientDisconnect_eq hi]
      refine h.update ?_ ?_ ?_ ?_
      · exact Finset.mem_erase.mpr ⟨(h.ne_dev i hi).symm, h.dev.2⟩
      · intro hserver
        exact Finset.mem_erase.mpr ⟨(h.ne_server i hi).symm, h.server hserver⟩
      · intro j hne hj
        refine Finset.mem_erase.mpr ⟨?_, h.opened j hj⟩
        intro heq
        exact hne (h.inj i j hi heq)
      · intro (hpos : (0 : ℤ) < -1)
        exact absurd hpos (by decide)
    · -- A slot that is not in use is left as it is.
      unfold Daemon.clientDisconnect handleClientDisconnect safeClosed
      rw [hfind]
      simp only [if_neg hi]
      exact h

theorem LoopInv.clientConnect (hnew : NewFd s fd) : LoopInv (s.clientConnect fd) := by
  unfold Daemon.clientConnect handleClientConnect
  split
  · exact h
  case isFalse hneg =>
    have hfd : fd ∉ s.fds := by
      rcases hnew with rfl | hnew
      · exact absurd (by decide) hneg
      · exact hnew.2
    cases findSlot s.clients (·.clientFd ≤ 0) with
    | none => exact h
    | some i =>
      refine h.update (Finset.mem_insert_of_mem h.dev.2) ?_ ?_ ?_
      · intro hserver
        exact Finset.mem_insert_of_mem (h.server hserver)
      · intro j _ hj
        exact Finset.mem_insert_of_mem (h.opened j hj)
      · intro hpos
        refine ⟨Finset.mem_insert_self _ _, ?_, ?_, ?_⟩
        · exact (ne_of_mem_of_not_mem h.dev.2 hfd).symm
        · change fd ≠ s.mbimServerFd
          intro heq
          subst heq
          exact hfd (h.server hpos.le)
        · intro j _
          by_cases hj : 0 < (s.clients j).clientFd
          · exact ne_of_mem_of_not_mem (h.opened j hj) hfd
          · exact fun heq ↦ hj (heq ▸ hpos)

/-- A new server socket. -/
theorem LoopInv.serve (hnew : NewFd s fd) :
    LoopInv { s with
      mbimServerFd := fd
      fds := if 0 ≤ fd then insert fd s.fds else s.fds } := by
  have hsub : s.fds ⊆ if 0 ≤ fd then insert fd s.fds else s.fds := by
    split
    · exact Finset.subset_insert _ _
    · exact Finset.Subset.refl _
  have hne : ∀ x ∈ s.fds, 0 < x → x ≠ fd := by
    intro x hx hpos heq
    subst heq
    rcases hnew with rfl | hnew
    · exact absurd hpos (by decide)
    · exact hnew.2 hx
  refine ⟨⟨h.dev.1, hsub h.dev.2⟩, ?_, ?_, h.ne_dev, ?_, (hne _ h.dev.2 h.dev.1).symm, h.inj⟩
  · intro hpos
    simp only [if_pos hpos]
    exact Finset.mem_insert_self _ _
  · intro j hj
    exact hsub (h.opened j hj)
  · intro j hj
    exact hne _ (h.opened j hj) hj

end Steps

/-! ## Runs -/

/-- The descriptors are in order whenever the program is in the loop. -/
def DaemonInv (s : Daemon) : Prop := ∀ l, s.control = .loop l → LoopInv s

section Runs

variable {s : Daemon} {fd : ℤ}

/-- There is nothing to show for a program that has left the loop. -/
theorem DaemonInv.leave (s : Daemon) : DaemonInv s.leave := by
  intro l hl
  cases hl

theorem DaemonInv.start (hmain : s.control = .main) :
    DaemonInv (s.start fd) := by
  unfold Daemon.start
  split
  · intro l hl
    rw [hmain] at hl
    cases hl
  · dsimp only
    split
    case isTrue hpos =>
      have hneg : ¬ (0 : ℤ) ≤ -1 := by decide
      have hzero : ¬ (0 : ℤ) < 0 := by decide
      intro l _
      refine ⟨⟨hpos, Finset.mem_insert_self _ _⟩, ?_, ?_, ?_, ?_, ?_, ?_⟩
      · exact fun h ↦ absurd h hneg
      · exact fun _ h ↦ absurd h hzero
      · exact fun _ h ↦ absurd h hzero
      · exact fun _ h ↦ absurd h hzero
      · change (-1 : ℤ) ≠ fd
        omega
      · exact fun _ _ h ↦ absurd h hzero
    · exact DaemonInv.leave _

theorem DaemonInv.handle (h : LoopInv s) {r : Ready} (hclient : NewFd s r.clientFd)
    (hserver : NewFd s r.serverFd) (fd : ℤ) (rest : List ℤ) : DaemonInv (s.handle fd rest r) := by
  have hgo : ∀ t : Daemon, LoopInv t → DaemonInv (t.proceed rest) := fun t ht _ _ ↦ ht.proceed rest
  unfold Daemon.handle
  split
  · split
    · exact DaemonInv.leave _
    · split
      · exact hgo _ h
      · exact hgo _ h.clientDisconnect
  · split
    · exact hgo _ h
    · split
      · exact hgo _ (h.clientConnect hclient)
      · split
        · split
          · exact DaemonInv.leave _
          · exact DaemonInv.leave _
        · split
          · split
            · unfold Daemon.openDone
              split
              · split
                · exact DaemonInv.leave _
                · exact hgo _ (h.serve hserver)
              · exact hgo _ h
            · exact hgo _ (h.deviceResponse _)
          · exact hgo _ (h.clientRequest _)

theorem daemonInv_of_reach (hs : daemonSystem.Reach (fun _ _ ↦ True) s) : DaemonInv s := by
  refine hs.invariant (I := DaemonInv) ?_ ?_
  · intro l hl
    cases hl
  · intro s e hinv he _
    change e.enabled s s.control at he
    change DaemonInv (e.act s s.control)
    cases hc : s.control with
    | main =>
      rw [hc] at he
      cases e with
      | opened fd => exact DaemonInv.start hc
      | polled ret => cases he
      | ready r => cases he
    | loop l =>
      rw [hc] at he
      have h := hinv l hc
      cases l with
      | nil =>
        cases e with
        | opened fd => cases he
        | polled ret =>
          change DaemonInv (if ret ≤ 0 then s.error else s.proceed s.pollfds)
          split
          · exact DaemonInv.leave _
          · exact fun _ _ ↦ h.proceed _
        | ready r => cases he
      | cons fd rest =>
        cases e with
        | opened fd => cases he
        | polled ret => cases he
        | ready r => exact DaemonInv.handle h he.1 he.2 fd rest

end Runs

/-! ## Isolation -/

/-- Nothing has happened but that the client in a slot was closed: the loop goes on with the rest
of the round, and the next round asks for all the others. -/
structure Isolated (s t : Daemon) (i : Fin cmMaxClient) (rest : List ℤ) : Prop where
  control : t.control = .loop rest
  slot : t.clients = Function.update s.clients i { s.clients i with clientFd := -1 }
  server : t.mbimServerFd = s.mbimServerFd
  dev : t.mbimDevFd = s.mbimDevFd
  fds : t.fds = s.fds.erase (s.clients i).clientFd
  pollfds : t.pollfds = s.pollfds.filter (· ≠ (s.clients i).clientFd)
  written : t.written = s.written

section Isolation

variable {s : Daemon} {i : Fin cmMaxClient}

/-- The clients that are polled once a slot is closed. -/
theorem LoopInv.clientFds_disconnect (h : LoopInv s) (hi : 0 < (s.clients i).clientFd) :
    (s.clientDisconnect (s.clients i).clientFd).clientFds =
      s.clientFds.filter (· ≠ (s.clients i).clientFd) := by
  rw [h.clientDisconnect_eq hi]
  unfold Daemon.clientFds
  rw [List.filter_filter, List.filter_map, List.filter_map]
  have hslots : ∀ l : List (Fin cmMaxClient),
      (l.filter fun j ↦ decide (0 < (Function.update s.clients i
        { s.clients i with clientFd := -1 } j).clientFd)) =
      l.filter fun j ↦ decide ((s.clients j).clientFd ≠ (s.clients i).clientFd) &&
        decide (0 < (s.clients j).clientFd) := by
    intro l
    refine List.filter_congr fun j _ ↦ ?_
    obtain rfl | hne := eq_or_ne j i
    · simp
    · have hother : (s.clients j).clientFd ≠ (s.clients i).clientFd :=
        fun heq ↦ hne (h.inj i j hi heq)
      simp [Function.update_of_ne hne, hother]
  refine (congrArg _ (hslots _)).trans ?_
  refine List.map_congr_left fun j hj ↦ ?_
  have hne : j ≠ i := by
    rintro rfl
    simp at hj
  simp [Function.update_of_ne hne]

/-- The descriptors that are polled once a slot is closed. -/
theorem LoopInv.pollfds_disconnect (h : LoopInv s) (hi : 0 < (s.clients i).clientFd) :
    (s.clientDisconnect (s.clients i).clientFd).pollfds =
      s.pollfds.filter (· ≠ (s.clients i).clientFd) := by
  have hdev : (s.clientDisconnect (s.clients i).clientFd).mbimDevFd = s.mbimDevFd := by
    rw [h.clientDisconnect_eq hi]
  have hserver : (s.clientDisconnect (s.clients i).clientFd).mbimServerFd = s.mbimServerFd := by
    rw [h.clientDisconnect_eq hi]
  unfold Daemon.pollfds
  rw [hdev, hserver, h.clientFds_disconnect hi, List.filter_cons,
    if_pos (decide_eq_true (h.ne_dev i hi).symm)]
  split
  · rw [List.filter_cons, if_pos (decide_eq_true (h.ne_server i hi).symm)]
  · rfl

/-- A client is closed, and the loop goes on. -/
theorem LoopInv.isolated (h : LoopInv s) (hi : 0 < (s.clients i).clientFd) (rest : List ℤ) :
    Isolated s ((s.clientDisconnect (s.clients i).clientFd).proceed rest) i rest := by
  refine ⟨rfl, ?_, ?_, ?_, ?_, h.pollfds_disconnect hi, ?_⟩
  all_goals
    unfold Daemon.proceed
    rw [h.clientDisconnect_eq hi]

/-- A client that ends is isolated from the others if and only if `poll` reports its end. -/
theorem client_end_isolated_iff (hs : daemonSystem.Reach (fun _ _ ↦ True) s) {rest : List ℤ}
    (hc : s.control = .loop ((s.clients i).clientFd :: rest))
    (hi : 0 < (s.clients i).clientFd) {r : Ready} (hend : r.ends) :
    Isolated s (daemonSystem.next s (.ready r)) i rest ↔ r.revents.failed = true := by
  have h := daemonInv_of_reach hs _ hc
  have hnext : daemonSystem.next s (.ready r) = s.handle (s.clients i).clientFd rest r := by
    change DaemonStep.act s s.control (.ready r) = _
    rw [hc]
    rfl
  rw [hnext]
  unfold Daemon.handle
  rw [if_neg (h.ne_dev i hi), if_neg (h.ne_server i hi)]
  constructor
  · intro hisolated
    by_contra hfailed
    -- The read has returned nothing, and `proxy_loop` returns.
    obtain ⟨hpollin, hlen⟩ := hend.resolve_left hfailed
    have hcontrol := hisolated.control
    rw [if_neg hfailed, if_neg (not_not.mpr hpollin), if_neg (h.ne_server i hi), if_pos hlen,
      if_neg (h.ne_dev i hi)] at hcontrol
    cases hcontrol
  · intro hfailed
    rw [if_pos hfailed]
    exact h.isolated hi rest

end Isolation

/-- Two clients have connected, and the loop comes to the first of them. -/
def twoClients : List DaemonStep :=
  let idle : Ready := ⟨⟨false, false, false, false⟩, 0, ⟨0, 0, 0, []⟩, -1, -1⟩
  let input : Ready := { idle with revents := ⟨false, false, false, true⟩ }
  [.opened 3, .polled 1,
    .ready { input with len := 16, buffer := ⟨mbimOpenDone, 16, 1, [0, 0, 0, 0]⟩, serverFd := 4 },
    .polled 1, .ready idle, .ready { input with clientFd := 5 },
    .polled 1, .ready idle, .ready { input with clientFd := 6 }, .ready idle,
    .polled 1, .ready idle, .ready idle]

/-- The first client hangs up, which `poll` reports. -/
theorem twoClients_isolated :
    Isolated (daemonSystem.exec daemonSystem.init twoClients)
      (daemonSystem.next (daemonSystem.exec daemonSystem.init twoClients)
        (.ready ⟨⟨false, true, false, true⟩, 0, ⟨0, 0, 0, []⟩, -1, -1⟩)) ⟨0, by decide⟩ [6] :=
  (client_end_isolated_iff (.exec .init (by decide)) (by decide) (by decide) (by decide)).mpr
    (by decide)

/-- The first client only shuts its end down for writing: the read returns 0, and the device
session ends for both. -/
theorem client_end_not_isolated :
    ∃ s, daemonSystem.Reach (fun _ _ ↦ True) s ∧ ∃ i rest r,
      s.control = .loop ((s.clients i).clientFd :: rest) ∧ 0 < (s.clients i).clientFd ∧
        Ready.ends r ∧ daemonSystem.enabled s (.ready r) ∧
          (daemonSystem.next s (.ready r)).mbimDevFd ∉ (daemonSystem.next s (.ready r)).fds ∧
            ¬ Isolated s (daemonSystem.next s (.ready r)) i rest := by
  refine ⟨daemonSystem.exec daemonSystem.init twoClients, .exec .init (by decide), ⟨0, by decide⟩,
    [6],
    ⟨⟨false, false, false, true⟩, 0, ⟨0, 0, 0, []⟩, -1, -1⟩, by decide, by decide, by decide,
    by decide, by decide, ?_⟩
  intro hisolated
  exact absurd hisolated.control (by decide)

end Wwan.MbimProxy
