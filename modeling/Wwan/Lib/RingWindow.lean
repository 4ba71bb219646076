import Wwan.Lib.Bytes
import Wwan.Lib.Ring

/-!
# Circular arrays with pointers kept modulo a number

The pointers of a circular array of `n` slots are often kept modulo some `m`, such as
`2 ^ 32`. If `n` divides `m` and is smaller, the slots from that of the read pointer to
that of the write pointer are a *window* that can grow and shrink at both ends.

A slot next to the window can be written before the pointer moves: neither changes
anything else, as long as the window is not as long as the array.
-/

namespace Wwan.Ring

variable {α : Type*} {m n rd wt : ℕ}

/-- The distance of the pointers. -/
def dist (m rd wt : ℕ) : ℕ := (wt + m - rd) % m

/-- The pointer before a pointer. -/
def pred (m rd : ℕ) : ℕ := (rd + m - 1) % m

/-- The entries between the pointers. -/
def window (m n : ℕ) (f : ℕ → α) (rd wt : ℕ) : List α := contents f n rd (dist m rd wt)

/-- The slots between the pointers. -/
def live (m n rd wt : ℕ) : List ℕ := slots n rd (dist m rd wt)

@[simp] theorem length_window (f : ℕ → α) : (window m n f rd wt).length = dist m rd wt :=
  length_contents f

/-- Pointers that have not moved have nothing between them. -/
theorem window_zero (m n : ℕ) (f : ℕ → α) : window m n f 0 0 = [] := by
  rw [← List.length_eq_zero_iff, length_window, dist, Nat.zero_add, Nat.sub_zero, Nat.mod_self]

/-! ## Pointers -/

section Pointers

variable (hrd : rd < m)

include hrd

/-- The write pointer has wrapped or not. -/
theorem dist_cases (hwt : wt < m) :
    rd ≤ wt ∧ dist m rd wt = wt - rd ∨ wt < rd ∧ dist m rd wt = wt + m - rd := by
  unfold dist
  rcases Nat.lt_or_ge wt rd with h | h
  · exact .inr ⟨h, Nat.mod_eq_of_lt (by omega)⟩
  · refine .inl ⟨h, ?_⟩
    rw [Nat.mod_eq_sub_mod (by omega), Nat.mod_eq_of_lt (by omega)]
    omega

theorem pred_cases : 0 < rd ∧ pred m rd = rd - 1 ∨ rd = 0 ∧ pred m rd = m - 1 := by
  unfold pred
  rcases Nat.eq_zero_or_pos rd with h | h
  · exact .inr ⟨h, by rw [h, Nat.zero_add, Nat.mod_eq_of_lt (by omega)]⟩
  · refine .inl ⟨h, ?_⟩
    rw [Nat.mod_eq_sub_mod (by omega), Nat.mod_eq_of_lt (by omega)]
    omega

theorem succ_cases : rd + 1 < m ∧ (rd + 1) % m = rd + 1 ∨ rd + 1 = m ∧ (rd + 1) % m = 0 := by
  rcases Nat.lt_or_eq_of_le (Nat.succ_le_of_lt hrd) with h | h
  · exact .inl ⟨h, Nat.mod_eq_of_lt h⟩
  · refine .inr ⟨h, ?_⟩
    rw [← h]
    exact Nat.mod_self _

theorem pred_lt : pred m rd < m := by
  have := pred_cases hrd
  omega

theorem dist_eq_zero_iff (hwt : wt < m) : dist m rd wt = 0 ↔ wt = rd := by
  have := dist_cases hrd hwt
  omega

theorem dist_succ_right (hwt : wt < m) (h : dist m rd wt + 1 < m) :
    dist m rd ((wt + 1) % m) = dist m rd wt + 1 := by
  have := dist_cases hrd hwt
  have := dist_cases hrd (Nat.mod_lt (wt + 1) (by omega))
  have := succ_cases hwt
  omega

theorem dist_add_right (hwt : wt < m) {i : ℕ} (h : dist m rd wt + i < m) :
    dist m rd ((wt + i) % m) = dist m rd wt + i := by
  induction i with
  | zero => rw [Nat.add_zero, Nat.mod_eq_of_lt hwt, Nat.add_zero]
  | succ i ih =>
    have hprev := ih (by omega)
    have hsucc := dist_succ_right hrd (Nat.mod_lt (wt + i) (by omega)) (by omega)
    rw [Nat.mod_add_mod] at hsucc
    rw [← Nat.add_assoc, hsucc, hprev, Nat.add_assoc]

theorem dist_succ_left (hwt : wt < m) (h : wt ≠ rd) :
    dist m rd wt = dist m ((rd + 1) % m) wt + 1 := by
  have := dist_cases hrd hwt
  have := dist_cases (Nat.mod_lt (rd + 1) (by omega)) hwt
  have := succ_cases hrd
  omega

theorem dist_pred_left (hwt : wt < m) (h : dist m rd wt + 1 < m) :
    dist m (pred m rd) wt = dist m rd wt + 1 := by
  have := dist_cases hrd hwt
  have := dist_cases (pred_lt hrd) hwt
  have := pred_cases hrd
  omega

end Pointers

/-! ## Slots

The slot of a pointer is that of every number it stands for. -/

section Slots

variable (hdvd : n ∣ m) (hrd : rd < m) (hwt : wt < m)

include hdvd

include hrd hwt in
/-- The write pointer has the slot behind the window. -/
theorem wt_mod : wt % n = (rd + dist m rd wt) % n := by
  have hsum : rd + dist m rd wt = wt ∨ rd + dist m rd wt = wt + m := by
    have := dist_cases hrd hwt
    omega
  rcases hsum with h | h
  · rw [h]
  · obtain ⟨c, rfl⟩ := hdvd
    rw [h, Nat.add_mul_mod_self_left]

include hrd in
/-- The pointer before has the slot that the window would reach last. -/
theorem pred_mod (hn : 0 < n) : pred m rd % n = (rd + (n - 1)) % n := by
  rcases pred_cases hrd with ⟨hpos, h⟩ | ⟨rfl, h⟩
  · have hsum : rd + (n - 1) = rd - 1 + n := by omega
    rw [h, hsum, Nat.add_mod_right]
  · obtain ⟨c, rfl⟩ := hdvd
    obtain ⟨c, rfl⟩ := Nat.exists_eq_succ_of_ne_zero (Nat.pos_of_mul_pos_left hrd).ne'
    have hsum : n * (c + 1) - 1 = n - 1 + n * c := by
      rw [Nat.mul_succ]
      omega
    rw [h, hsum, Nat.add_mul_mod_self_left, Nat.zero_add]

include hrd in
/-- The slot after that of the pointer before. -/
theorem pred_succ_mod (hn : 0 < n) : (pred m rd + 1) % n = rd % n := by
  rw [← Nat.mod_add_mod, pred_mod hdvd hrd hn, Nat.mod_add_mod, Nat.add_assoc,
    Nat.sub_add_cancel hn, Nat.add_mod_right]

end Slots

/-! ## 32-bit pointers -/

section U32

open Bytes

theorem u32_pred {a : ℕ} (h : a < 2 ^ 32) : u32 (a - 1) = pred (2 ^ 32) a := by
  have := pred_cases h
  unfold u32
  omega

variable {rd wt : ℕ} (hrd : rd < 2 ^ 32) (hwt : wt < 2 ^ 32)

include hrd hwt

theorem u32_sub : u32 (wt - rd) = dist (2 ^ 32) rd wt := by
  have := dist_cases hrd hwt
  unfold u32
  omega

theorem int32_sub (h : dist (2 ^ 32) rd wt < 2 ^ 31) :
    int32 (wt - rd) = dist (2 ^ 32) rd wt := by
  have := dist_cases hrd hwt
  unfold int32
  rw [Int.bmod_def]
  split <;> omega

end U32

/-- Contents depend on the slot of the first entry only. -/
theorem contents_congr (f : ℕ → α) {s s' k : ℕ} (h : s % n = s' % n) :
    contents f n s k = contents f n s' k := by
  rw [← contents_mod, h, contents_mod]

/-! ## Both ends -/

section Window

variable (f : ℕ → α) (hdvd : n ∣ m) (hrd : rd < m) (hwt : wt < m)

/-- The window is empty if and only if the pointers agree. -/
theorem window_eq_nil_iff (hrd : rd < m) (hwt : wt < m) : window m n f rd wt = [] ↔ wt = rd := by
  rw [← List.length_eq_zero_iff, length_window, dist_eq_zero_iff hrd hwt]

/-- A write to a slot that is not in the window leaves it. -/
theorem window_update {i : ℕ} (x : α) (h : i ∉ live m n rd wt) :
    window m n (Function.update f i x) rd wt = window m n f rd wt := by
  refine List.map_congr_left fun j hj ↦ Function.update_of_ne ?_ x f
  rintro rfl
  exact h hj

/-- The first slot is in the window, if there is any. -/
theorem rd_mem_live (hrd : rd < m) (hwt : wt < m) (h : wt ≠ rd) : rd % n ∈ live m n rd wt := by
  refine mem_slots.mpr ⟨rd, le_rfl, ?_, rfl⟩
  have := mt (dist_eq_zero_iff hrd hwt).mp h
  omega

include hdvd hrd hwt

/-- The slot behind the window is not in it. -/
theorem wt_notMem_live (h : dist m rd wt < n) : wt % n ∉ live m n rd wt := by
  rw [wt_mod hdvd hrd hwt]
  exact notMem_slots h

omit hwt in
/-- The slot before the window is not in it. -/
theorem pred_notMem_live (h : dist m rd wt < n) : pred m rd % n ∉ live m n rd wt := by
  rw [pred_mod hdvd hrd (by omega)]
  intro hmem
  obtain ⟨a, hle, hlt, heq⟩ := mem_slots.mp hmem
  have : a = rd + (n - 1) := eq_of_mod_eq heq (by omega) (by omega)
  omega

/-- The slots next to the window are different, if there are two. -/
theorem pred_mod_ne_wt_mod (h : dist m rd wt + 1 < n) : pred m rd % n ≠ wt % n := by
  rw [pred_mod hdvd hrd (by omega), wt_mod hdvd hrd hwt]
  intro heq
  have := eq_of_mod_eq heq.symm (by omega) (by omega)
  omega

/-- An entry is appended when the write pointer moves. -/
theorem window_succ_right (h : dist m rd wt < n) (hlt : n < m) :
    window m n f rd ((wt + 1) % m) = window m n f rd wt ++ [f (wt % n)] := by
  unfold window
  rw [dist_succ_right hrd hwt (by omega), contents_snoc, wt_mod hdvd hrd hwt]

/-- Entries are appended when the write pointer moves over them. -/
theorem window_add_right {i : ℕ} (h : dist m rd wt + i < m) :
    window m n f rd ((wt + i) % m) = window m n f rd wt ++ contents f n wt i := by
  rw [window, dist_add_right hrd hwt h, contents_add, window,
    contents_congr f (wt_mod hdvd hrd hwt)]

/-- A slot behind the window is not in it. -/
theorem add_notMem_live {i : ℕ} (h : dist m rd wt + i < n) : (wt + i) % n ∉ live m n rd wt := by
  have hslot : (wt + i) % n = (rd + (dist m rd wt + i)) % n := by
    rw [← Nat.mod_add_mod, wt_mod hdvd hrd hwt, Nat.mod_add_mod, Nat.add_assoc]
  rw [hslot]
  intro hmem
  obtain ⟨a, hle, hlt, heq⟩ := mem_slots.mp hmem
  have : a = rd + (dist m rd wt + i) := eq_of_mod_eq heq (by omega) (by omega)
  omega

/-- An entry is written behind the window, and appended when the write pointer moves. -/
theorem window_push (x : α) (h : dist m rd wt < n) (hlt : n < m) :
    window m n (Function.update f (wt % n) x) rd ((wt + 1) % m) = window m n f rd wt ++ [x] := by
  rw [window_succ_right _ hdvd hrd hwt h hlt, window_update f x (wt_notMem_live hdvd hrd hwt h),
    Function.update_self]

/-- The first entry is left when the read pointer moves. -/
theorem window_succ_left (h : wt ≠ rd) :
    window m n f rd wt = f (rd % n) :: window m n f ((rd + 1) % m) wt := by
  unfold window
  rw [dist_succ_left hrd hwt h, contents_succ,
    contents_congr f (Nat.mod_mod_of_dvd (rd + 1) hdvd)]

omit hdvd hrd hwt in
/-- An entry by its distance from the read pointer. -/
theorem getElem_window {i : ℕ} (h : i < (window m n f rd wt).length) :
    (window m n f rd wt)[i] = f ((rd + i) % n) := by
  simp [window, contents, slots]

/-- The first entries are left when the read pointer moves over them. -/
theorem window_add_left {i : ℕ} (h : i ≤ dist m rd wt) :
    window m n f ((rd + i) % m) wt = (window m n f rd wt).drop i := by
  induction i with
  | zero => rw [Nat.add_zero, Nat.mod_eq_of_lt hrd, List.drop_zero]
  | succ i ih =>
    have hmod : (rd + i) % m < m := Nat.mod_lt _ (by omega)
    have hlen := @length_window _ m n ((rd + i) % m) wt f
    rw [ih (by omega), List.length_drop, length_window] at hlen
    have hne : wt ≠ (rd + i) % m := by
      intro heq
      rw [(dist_eq_zero_iff hmod hwt).mpr heq] at hlen
      omega
    have hsucc := window_succ_left f hdvd hmod hwt hne
    rw [ih (by omega), Nat.mod_add_mod] at hsucc
    rw [← List.drop_drop, hsucc, Nat.add_assoc]
    rfl

/-- An entry is put before the others when the read pointer moves back. -/
theorem window_pred_left (h : dist m rd wt < n) (hlt : n < m) :
    window m n f (pred m rd) wt = f (pred m rd % n) :: window m n f rd wt := by
  unfold window
  rw [dist_pred_left hrd hwt (by omega), contents_succ,
    contents_congr f (pred_succ_mod hdvd hrd (by omega))]

end Window

end Wwan.Ring
