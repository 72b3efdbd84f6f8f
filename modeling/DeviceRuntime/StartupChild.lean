/-
# A child up to its program

What the program of a child does to its descriptors and what it reads, whatever
the others do meanwhile. A child reads from the gate only, at most one byte,
and gets past `startup_gate_wait` with exactly that byte. Of its descriptors,
those it was forked with are followed through `close`, `dup2` and `open`, and
of the others only what they can be open on is known.

Key definitions: `Holds`, `AfterGate`, `childWatch`.
Key theorems: `childPrepareBeforeGate_safe`, `redirectFd_safe`, `setredirect_safe`,
`childRun_gate`.
-/
import DeviceRuntime.StartupWorld

namespace DeviceRuntime

open Prog

/-! ### Descriptors of a child -/

/-- The child has `owned` open, on what the list says, and all else that is open
satisfies `R`. -/
structure Holds (R : Descriptor → Prop) (owned : List (ℤ × Descriptor)) (fds : FdTable) : Prop where
  nodup : (owned.map Prod.fst).Nodup
  opened : ∀ x ∈ owned, fds x.1 = some x.2
  rest : ∀ fd, fd ∉ owned.map Prod.fst → ∀ d, fds fd = some d → R d

section Holds

variable {R : Descriptor → Prop} {owned owned' : List (ℤ × Descriptor)} {fds fds' : FdTable} {fd target : ℤ}
  {d d' : Descriptor}

theorem Holds.perm (h : Holds R owned fds) (hp : owned.Perm owned') : Holds R owned' fds := by
  have hkeys : (owned.map Prod.fst).Perm (owned'.map Prod.fst) := hp.map _
  exact ⟨hkeys.nodup_iff.mp h.nodup, fun x hx => h.opened x (hp.mem_iff.mpr hx),
    fun fd hfd => h.rest fd fun hmem => hfd (hkeys.mem_iff.mp hmem)⟩

theorem Holds.head (h : Holds R ((fd, d) :: owned) fds) : fds fd = some d := h.opened _ List.mem_cons_self

theorem Holds.close (h : Holds R ((fd, d) :: owned) fds) : Holds R owned (fds.closeFd fd) := by
  obtain ⟨hnot, hnodup⟩ := List.nodup_cons.mp h.nodup
  refine ⟨hnodup, ?_, ?_⟩
  · intro x hx
    have hmem : x.1 ∈ owned.map Prod.fst := List.mem_map_of_mem hx
    have hne : x.1 ≠ fd := fun heq => hnot (heq ▸ hmem)
    have hsame : fds.closeFd fd x.1 = fds x.1 := Function.update_of_ne hne _ _
    rw [hsame]
    exact h.opened x (List.mem_cons_of_mem _ hx)
  · intro x hx d' hd
    by_cases heq : x = fd
    · have hnone : fds.closeFd fd x = Option.none := by rw [heq]; exact Function.update_self ..
      rw [hnone] at hd
      cases hd
    · have hsame : fds.closeFd fd x = fds x := Function.update_of_ne heq _ _
      rw [hsame] at hd
      exact h.rest x (by simp [heq, hx]) d' hd

/-- `open` gives a descriptor that was not in use. -/
theorem Holds.openFile (h : Holds R owned fds) (hfree : fds fd = none) (d : Descriptor) :
    Holds R ((fd, d) :: owned) (Function.update fds fd (some d)) := by
  have hnot : fd ∉ owned.map Prod.fst := by
    intro hmem
    obtain ⟨x, hx, hxfd⟩ := List.mem_map.mp hmem
    have hopen : fds x.1 = some x.2 := h.opened x hx
    rw [hxfd, hfree] at hopen
    cases hopen
  refine ⟨List.nodup_cons.mpr ⟨hnot, h.nodup⟩, ?_, ?_⟩
  · intro x hx
    rcases List.mem_cons.mp hx with hx | hx
    · rw [hx]
      exact Function.update_self ..
    · have hmem : x.1 ∈ owned.map Prod.fst := List.mem_map_of_mem hx
      have hne : x.1 ≠ fd := fun heq => hnot (heq ▸ hmem)
      rw [Function.update_of_ne hne]
      exact h.opened x hx
  · intro x hx d' hd
    have hx' : x ≠ fd ∧ x ∉ owned.map Prod.fst := by simpa using hx
    rw [Function.update_of_ne hx'.1] at hd
    exact h.rest x hx'.2 d' hd

/-- `dup2` onto a descriptor that is open. -/
theorem Holds.dup (h : Holds R ((fd, d) :: (target, d') :: owned) fds) :
    Holds R ((fd, d) :: (target, d) :: owned) (Function.update fds target (fds fd)) := by
  have hnodup : (fd :: target :: owned.map Prod.fst).Nodup := h.nodup
  obtain ⟨hfd, hrest⟩ := List.nodup_cons.mp hnodup
  obtain ⟨htarget, -⟩ := List.nodup_cons.mp hrest
  have hne : fd ≠ target := fun heq => hfd (heq ▸ List.mem_cons_self)
  refine ⟨h.nodup, ?_, ?_⟩
  · intro x hx
    rcases List.mem_cons.mp hx with hx | hx
    · rw [hx, Function.update_of_ne hne]
      exact h.head
    rcases List.mem_cons.mp hx with hx | hx
    · rw [hx, Function.update_self]
      exact h.head
    · have hmem : x.1 ∈ owned.map Prod.fst := List.mem_map_of_mem hx
      have hnet : x.1 ≠ target := fun heq => htarget (heq ▸ hmem)
      rw [Function.update_of_ne hnet]
      exact h.opened x (List.mem_cons_of_mem _ (List.mem_cons_of_mem _ hx))
  · intro x hx d'' hd
    have hnet : x ≠ target := fun heq => hx (by simp [heq])
    rw [Function.update_of_ne hnet] at hd
    exact h.rest x hx d'' hd

/-- Descriptors are closed that are none of `owned`. -/
theorem Holds.shrink {R' : Descriptor → Prop} (h : Holds R owned fds)
    (hsub : ∀ fd d, fds' fd = some d → fds fd = some d) (hkeep : ∀ x ∈ owned, fds' x.1 = some x.2)
    (hR : ∀ fd d, R d → fds' fd = some d → R' d) : Holds R' owned fds' :=
  ⟨h.nodup, hkeep, fun fd hfd d hd => hR fd d (h.rest fd hfd d (hsub fd d hd)) hd⟩

/-- The event pipe is closed. -/
theorem Holds.shutEvent (h : Holds R owned fds) (howned : ∀ x ∈ owned, x.2 ≠ .event) :
    Holds (fun d => R d ∧ d ≠ .event) owned fds.shutEvent := by
  have hcases : ∀ fd d, fds.shutEvent fd = some d → fds fd = some d ∧ d ≠ .event := by
    intro fd d hd
    unfold FdTable.shutEvent at hd
    split_ifs at hd with hevent
    exact ⟨hd, fun heq => hevent (by rw [hd, heq])⟩
  refine h.shrink (fun fd d hd => (hcases fd d hd).1) ?_ fun fd d hR hd => ⟨hR, (hcases fd d hd).2⟩
  intro x hx
  have hopen : fds x.1 = some x.2 := h.opened x hx
  have hne : fds x.1 ≠ some .event := by
    rw [hopen]
    exact fun heq => howned x hx (Option.some.inj heq)
  have hsame : fds.shutEvent x.1 = fds x.1 := if_neg hne
  rw [hsame, hopen]

/-- Devices are closed. -/
theorem Holds.closeDevices (h : Holds R owned fds) (howned : ∀ x ∈ owned, ∀ n, x.2 ≠ .device n)
    (hclose : fds.ClosesDevices fds') : Holds R owned fds' := by
  have hsub : ∀ fd d, fds' fd = some d → fds fd = some d := by
    intro fd d hd
    rcases hclose fd with hsame | ⟨hnone, -⟩
    · rw [← hsame, hd]
    · rw [hnone] at hd
      cases hd
  refine h.shrink hsub ?_ fun _ _ hR _ => hR
  intro x hx
  have hopen : fds x.1 = some x.2 := h.opened x hx
  rcases hclose x.1 with hsame | ⟨-, n, hdev⟩
  · rw [hsame, hopen]
  · rw [hopen] at hdev
    exact absurd (Option.some.inj hdev) (howned x hx n)

/-- What a child has of its parent's descriptors. `std` are descriptors of the
entry. -/
theorem Owns.holds {e : ExecEntry} (h : Owns e owned fds) (std : List (ℤ × Descriptor))
    (hnodup : (std.map Prod.fst).Nodup) (hstd : ∀ x ∈ std, e.fds x.1 = some x.2)
    (hrest : ∀ fd d, e.fds fd = some d → R d) : Holds R (owned ++ std) fds := by
  have hfresh : ∀ x ∈ owned, ∀ y ∈ std, x.1 ≠ y.1 := by
    intro x hx y hy heq
    have hnone : e.fds x.1 = Option.none := (h.opened x hx).1
    rw [heq, hstd y hy] at hnone
    cases hnone
  have hnot : ∀ y ∈ std, y.1 ∉ owned.map Prod.fst := by
    intro y hy hmem
    obtain ⟨x, hx, hxy⟩ := List.mem_map.mp hmem
    exact hfresh x hx y hy hxy
  refine ⟨?_, ?_, ?_⟩
  · rw [List.map_append, List.nodup_append]
    refine ⟨h.nodup, hnodup, ?_⟩
    intro a ha b hb
    obtain ⟨x, hx, hxa⟩ := List.mem_map.mp ha
    obtain ⟨y, hy, hyb⟩ := List.mem_map.mp hb
    rw [← hxa, ← hyb]
    exact hfresh x hx y hy
  · intro x hx
    rcases List.mem_append.mp hx with hx | hx
    · exact (h.opened x hx).2
    · rw [h.rest x.1 (hnot x hx)]
      exact hstd x hx
  · intro fd hfd d hd
    rw [List.map_append, List.mem_append, not_or] at hfd
    rw [h.rest fd hfd.1] at hd
    exact hrest fd d hd

end Holds

/-! ### What is watched -/

/-- The calls that only a child past the gate makes. -/
def AfterGate : ChildCall → Prop
  | .sigprocmask .setmask _ | .setDefault _ | .dup2 _ _ | .openFile _ _ | .execvp _ => True
  | _ => False

/-- At most one byte is read, from the gate, and the calls after the gate come
with it. `goal` is what has to hold at `execvp`. -/
def childWatch (goal : ChildView → Prop) : Watch ChildCall ChildView where
  always s := s.took.length ≤ 1
  atCall o s := (AfterGate o → s.took = ['G'.toUInt8]) ∧ match o with
    | .read fd => s.fds fd = some (.readEnd 0) ∧ s.took = []
    | .execvp _ => goal s
    | _ => True

/-! ### One call -/

section Calls

variable {A : SignalRule} {C : Watch ChildCall ChildView} {goal : ChildView → Prop} {α : Type}
  {Q : α → ChildView → Prop} {R : Descriptor → Prop} {owned : List (ℤ × Descriptor)} {s : ChildView}

/-- The others leave a child its descriptors and its bytes. -/
theorem stable_child (P : FdTable → List Byte → Prop) : Stable (childWorld A) fun s => P s.fds s.took := by
  intro s s' henv h
  rw [henv.fds, henv.took]
  exact h

/-- The same, where only the descriptors matter once the byte is read. -/
theorem stable_holds (bytes : List Byte) (R : Descriptor → Prop) (owned : List (ℤ × Descriptor)) :
    Stable (childWorld A) fun s => s.took = bytes ∧ Holds R owned s.fds :=
  stable_child fun fds took => took = bytes ∧ Holds R owned fds

/-- `retry` of a call that either fails and does nothing, or is done. -/
theorem retry_safe {Op : Type} {Ret : Op → Type} {W : Type} {M : World Op Ret W} {C : Watch Op W} {o : Op}
    {f : Ret o → CallResult} {P P' : W → Prop} (hP : Stable M P) (hP' : Stable M P')
    (hgood : ∀ w, P w → C.always w ∧ C.atCall o w) (halways : ∀ w, P' w → C.always w)
    (hcall : ∀ w r w', P w → M.sem w o r w' → ((f r).ret < 0 ∧ P w') ∨ (0 ≤ (f r).ret ∧ P' w')) {w : W} (h : P w) :
    Safe M C (fun ret w => if ret < 0 then P w else P' w) (retry (.call o fun r => .ret (f r))) w := by
  have hdone : ∀ ret : ℤ, Stable M fun w => if ret < 0 then P w else P' w := by
    intro ret
    split_ifs
    · exact hP
    · exact hP'
  have hok : ∀ (ret : ℤ) (w : W), (if ret < 0 then P w else P' w) → C.always w := by
    intro ret w hw
    split_ifs at hw
    · exact (hgood w hw).1
    · exact halways w hw
  unfold retry
  refine Safe.iter (I := fun _ => P) (fun _ => hP) hdone (fun _ w hw => (hgood w hw).1) hok ?_ h
  intro _ w hw
  refine Safe.call hP hgood ?_ hw
  intro w r w' hw hs
  rw [ret_bind]
  rcases hcall w r w' hw hs with ⟨hret, hw'⟩ | ⟨hret, hw'⟩
  · rw [if_pos hret]
    by_cases hintr : (f r).errno = EINTR
    · rw [if_pos hintr]
      exact Safe.ret hP (fun w hw => ⟨(hgood w hw).1, hw⟩) hw'
    · rw [if_neg hintr]
      exact Safe.ret hP (fun w hw => ⟨(hgood w hw).1, hw⟩) hw'
  · rw [if_neg (by omega)]
    exact Safe.ret hP' (fun w hw => ⟨halways w hw, hw⟩) hw'

/-- A child may give up at any point. -/
theorem childExit_safe (code : ℕ) {P : ChildView → Prop} (hP : Stable (childWorld A) P)
    (hgood : ∀ s, P s → C.always s ∧ C.atCall (.exit code) s) (h : P s) :
    Safe (childWorld A) C Q (childExit code) s :=
  Safe.call hP hgood (fun _ r _ _ _ => r.elim) h

end Calls

/-! ### Up to the gate -/

section Gate

variable {A : SignalRule} {goal : ChildView → Prop} {α : Type} {Q : α → ChildView → Prop} {R : Descriptor → Prop}
  {owned : List (ℤ × Descriptor)} {s : ChildView}

/-- Nothing of the gate is asked of these calls. -/
def Plain : ChildCall → Prop
  | .close _ | .sigprocmask .block _ | .setpgid _ | .eventShut | .deviceCloseAll | .exit _ => True
  | _ => False

theorem plain_good {o : ChildCall} (ho : Plain o) (s : ChildView) (h : s.took = [] ∧ Holds R owned s.fds) :
    (childWatch goal).always s ∧ (childWatch goal).atCall o s := by
  have hnot : ¬ AfterGate o := by
    unfold Plain at ho
    split at ho <;> simp_all [AfterGate]
  have hcall : (childWatch goal).atCall o s := by
    refine ⟨fun h => absurd h hnot, ?_⟩
    unfold Plain at ho
    split at ho <;> simp_all
  have hshort : s.took.length ≤ 1 := by simp [h.1]
  exact ⟨hshort, hcall⟩

/-- What waiting for the gate leaves: 0 is returned exactly if the byte was
read. -/
def Waited (R : Descriptor → Prop) (owned : List (ℤ × Descriptor)) (ret : ℤ) (s : ChildView) : Prop :=
  s.took.length ≤ 1 ∧ (ret < 0 ∨ (ret = 0 ∧ s.took = ['G'.toUInt8] ∧ Holds R owned s.fds))

theorem startupGateWait_safe {gateRead : ℤ} (hgate : ∀ fds, Holds R owned fds → fds gateRead = some (.readEnd 0))
    (h : s.took = [] ∧ Holds R owned s.fds) :
    Safe (childWorld A) (childWatch goal) (Waited R owned) (startupGateWait gateRead) s := by
  have hempty := stable_holds (A := A) [] R owned
  have hdone : ∀ ret, Stable (childWorld A) (Waited R owned ret) := fun ret => stable_child fun fds took =>
    took.length ≤ 1 ∧ (ret < 0 ∨ (ret = 0 ∧ took = ['G'.toUInt8] ∧ Holds R owned fds))
  have halways : ∀ s : ChildView, s.took = [] ∧ Holds R owned s.fds → (childWatch goal).always s := by
    intro s hs
    have hzero : s.took.length ≤ 1 := by simp [hs.1]
    exact hzero
  have hleave : ∀ (ret : ℤ) (s : ChildView), Waited R owned ret s → Safe (childWorld A) (childWatch goal)
      (Sum.elim (fun _ s => s.took = [] ∧ Holds R owned s.fds) (Waited R owned)) (.ret (.inr ret : Unit ⊕ ℤ)) s := by
    intro ret s hs
    exact Safe.ret (hdone ret) (fun s hs => ⟨hs.1, hs⟩) hs
  unfold startupGateWait
  refine Safe.iter (I := fun _ s => s.took = [] ∧ Holds R owned s.fds) (fun _ => hempty) hdone (fun _ => halways)
    (fun _ _ hw => hw.1) ?_ h
  intro _ s hs
  refine Safe.call hempty (fun s hs => ⟨halways s hs, fun h => h.elim, hgate _ hs.2, hs.1⟩) ?_ hs
  intro s r s' hs hsem
  have hsem : childRead s gateRead r s' := hsem
  unfold childRead at hsem
  rw [hgate _ hs.2] at hsem
  rcases hsem with ⟨b, rest, -, hret, hvalue, rfl⟩ | ⟨-, -, hret, rfl⟩ | ⟨hret, rfl⟩
  · rw [if_pos hret, hvalue]
    have htook : (s.take 0 b rest).took = [b] := by simp [ChildView.take, hs.1]
    by_cases hb : b = 'G'.toUInt8
    · rw [if_pos hb]
      exact hleave 0 (s.take 0 b rest) ⟨by simp [htook], .inr ⟨rfl, by rw [htook, hb], hs.2⟩⟩
    · rw [if_neg hb]
      exact hleave (-1) (s.take 0 b rest) ⟨by simp [htook], .inl (by decide)⟩
  · rw [if_neg (by omega), if_pos hret]
    exact hleave (-1) s' ⟨halways s' hs, .inl (by decide)⟩
  · rw [if_neg (by omega), if_neg (by omega)]
    by_cases hintr : r.errno = EINTR
    · rw [if_pos hintr]
      exact Safe.ret hempty (fun s hs => ⟨halways s hs, hs⟩) hs
    · rw [if_neg hintr]
      exact hleave (-1) s' ⟨halways s' hs, .inl (by decide)⟩

/-- A child before the gate gets past it with the byte, with the gate and the
event pipe closed, or ends. -/
theorem childPrepareBeforeGate_safe {gateRead gateWrite : ℤ} (pgid : ℕ) (howned : ∀ x ∈ owned, ∃ n, x.2 = .file n ∨
      x.2 = .readEnd n ∨ x.2 = .writeEnd n)
    (htook : s.took = []) (h : Holds R ((gateRead, .readEnd 0) :: (gateWrite, .writeEnd 0) :: owned) s.fds) :
    Safe (childWorld A) (childWatch goal)
      (fun _ s => s.took = ['G'.toUInt8] ∧ Holds (fun d => R d ∧ d ≠ .event) owned s.fds)
      (childPrepareBeforeGate gateRead gateWrite pgid) s := by
  have hgood : ∀ {R : Descriptor → Prop} {owned : List (ℤ × Descriptor)} {o : ChildCall}, Plain o → ∀ s : ChildView,
      s.took = [] ∧ Holds R owned s.fds → (childWatch goal).always s ∧ (childWatch goal).atCall o s :=
    fun ho s hs => plain_good ho s hs
  have hstable := fun R owned => stable_holds (A := A) [] R owned
  have hend : ∀ (R' : Descriptor → Prop) (owned' : List (ℤ × Descriptor)) (s : ChildView),
      s.took = [] ∧ Holds R' owned' s.fds → Safe (childWorld A) (childWatch goal)
        (fun _ s => s.took = ['G'.toUInt8] ∧ Holds (fun d => R d ∧ d ≠ .event) owned s.fds)
        (childExit 1 : ChildProg Unit) s :=
    fun R' owned' s hs => childExit_safe 1 (hstable R' owned') (hgood trivial) hs
  have hnoevent : ∀ x ∈ (gateRead, Descriptor.readEnd 0) :: owned, x.2 ≠ .event := by
    intro x hx
    rcases List.mem_cons.mp hx with hx | hx
    · simp [hx]
    · rcases howned x hx with ⟨n, h | h | h⟩ <;> simp [h]
  have hnodevice : ∀ x ∈ (gateRead, Descriptor.readEnd 0) :: owned, ∀ n, x.2 ≠ .device n := by
    intro x hx n
    rcases List.mem_cons.mp hx with hx | hx
    · simp [hx]
    · rcases howned x hx with ⟨n, h | h | h⟩ <;> simp [h]
  unfold childPrepareBeforeGate
  refine Safe.call (hstable R _) (hgood trivial) ?_ ⟨htook, h.perm (List.Perm.swap ..)⟩
  intro s _ s' hs hsem
  have hsem : s' = s.setFds (s.fds.closeFd gateWrite) := hsem
  have hclosed : s'.took = [] ∧ Holds R ((gateRead, .readEnd 0) :: owned) s'.fds := by
    rw [hsem]
    exact ⟨hs.1, hs.2.close⟩
  refine Safe.call (hstable R _) (hgood trivial) ?_ hclosed
  intro s _ s' hs hsem
  have hsem : s' = s.setSignals (s.signals.mask .block [.sigint, .sigquit, .sigtstp, .sigttin, .sigttou]) := hsem
  have hblocked : s'.took = [] ∧ Holds R ((gateRead, .readEnd 0) :: owned) s'.fds := hsem ▸ hs
  refine Safe.bind (p := setpgidChild pgid) (retry_safe (o := .setpgid pgid) (f := fun r => r) (hstable R _)
    (hstable R ((gateRead, .readEnd 0) :: owned)) (hgood (o := .setpgid pgid) trivial)
    (fun s hs => (hgood (o := .eventShut) trivial s hs).1) ?_ hblocked) ?_
  · intro s r s' hs hsem
    have hsem : s' = s := hsem
    rw [hsem]
    exact (lt_or_ge r.ret 0).imp (fun h => ⟨h, hs⟩) fun h => ⟨h, hs⟩
  intro ret s hs _
  by_cases hret : ret < 0
  · rw [if_pos hret] at hs ⊢
    exact hend R _ s hs
  rw [if_neg hret] at hs ⊢
  refine Safe.call (hstable R _) (hgood trivial) ?_ hs
  intro s _ s' hs hsem
  have hsem : s' = s.setFds s.fds.shutEvent := hsem
  have hshut : s'.took = [] ∧ Holds (fun d => R d ∧ d ≠ .event) ((gateRead, .readEnd 0) :: owned) s'.fds := by
    rw [hsem]
    exact ⟨hs.1, hs.2.shutEvent hnoevent⟩
  refine Safe.call (hstable _ _) (hgood trivial) ?_ hshut
  intro s ret s' hs hsem
  obtain ⟨fds, hclose, hsem⟩ : ∃ fds, s.fds.ClosesDevices fds ∧ s' = s.setFds fds := hsem
  have hdevices : s'.took = [] ∧ Holds (fun d => R d ∧ d ≠ .event) ((gateRead, .readEnd 0) :: owned) s'.fds := by
    rw [hsem]
    exact ⟨hs.1, hs.2.closeDevices hnodevice hclose⟩
  by_cases hret : ret < 0
  · rw [if_pos hret]
    exact hend _ _ s' hdevices
  rw [if_neg hret]
  refine Safe.bind (startupGateWait_safe (fun fds h => h.head) hdevices) ?_
  intro ret s hs _
  by_cases hret : ret < 0
  · rw [if_pos hret]
    refine childExit_safe 1 (stable_child fun _ took => took.length ≤ 1) ?_ hs.1
    exact fun s hs => ⟨hs, fun h => h.elim, trivial⟩
  rw [if_neg hret]
  obtain ⟨-, htook, hholds⟩ := hs.2.resolve_left hret
  have hbyte := stable_holds (A := A) ['G'.toUInt8] (fun d => R d ∧ d ≠ .event)
  have hpast : ∀ {owned : List (ℤ × Descriptor)} (s : ChildView), s.took = ['G'.toUInt8] ∧
      Holds (fun d => R d ∧ d ≠ .event) owned s.fds → (childWatch goal).always s := by
    intro owned s hs
    have hone : s.took.length ≤ 1 := by simp [hs.1]
    exact hone
  refine Safe.call (hbyte _) (fun s hs => ⟨hpast s hs, fun h => h.elim, trivial⟩) ?_ ⟨htook, hholds⟩
  intro s _ s' hs hsem
  have hsem : s' = s.setFds (s.fds.closeFd gateRead) := hsem
  have hopen : s'.took = ['G'.toUInt8] ∧ Holds (fun d => R d ∧ d ≠ .event) owned s'.fds := by
    rw [hsem]
    exact ⟨hs.1, hs.2.close⟩
  unfold signalResetChild
  refine Safe.bind (Safe.foldlM (fun _ => hbyte owned) (fun _ => hpast) ?_ resetSignals hopen) ?_
  · intro _ sig s hs
    refine Safe.call (hbyte owned) (fun s hs => ⟨hpast s hs, fun _ => hs.1, trivial⟩) ?_ hs
    intro s _ s' hs hsem
    have hsem : s' = s.setSignals (s.signals.setDefault sig) := hsem
    exact Safe.ret (hbyte owned) (fun s hs => ⟨hpast s hs, hs⟩) (hsem ▸ hs)
  · intro _ s hs _
    refine Safe.call (hbyte owned) (fun s hs => ⟨hpast s hs, fun _ => hs.1, trivial⟩) ?_ hs
    intro s _ s' hs hsem
    have hsem : s' = s.setSignals (s.signals.mask .setmask []) := hsem
    exact Safe.ret (hbyte owned) (fun s hs => ⟨hpast s hs, hs⟩) (hsem ▸ hs)

/-- Past the gate a child reads no more, and leaves its signals alone. -/
def PastCall : ChildCall → Prop
  | .read _ | .sigprocmask _ _ | .setDefault _ => False
  | _ => True

theorem past_safe {p : ChildProg Unit} (hp : p.Only PastCall) (h : s.took = ['G'.toUInt8]) :
    Safe (childWorld A) (childWatch fun _ => True) (fun _ s => s.took = ['G'.toUInt8]) p s := by
  have hbyte : Stable (childWorld A) fun s => s.took = ['G'.toUInt8] := stable_child fun _ took => took = ['G'.toUInt8]
  refine Only.safe hbyte ?_ ?_ ?_ hp h
  · intro s hs
    have hone : s.took.length ≤ 1 := by simp [hs]
    exact hone
  · intro o s ho hs
    refine ⟨fun _ => hs, ?_⟩
    cases o with
    | read fd => exact ho.elim
    | _ => trivial
  · intro o s r s' ho hs hsem
    cases o with
    | read fd => exact ho.elim
    | sigprocmask how set => exact ho.elim
    | setDefault sig => exact ho.elim
    | close fd => exact (show s' = s.setFds _ from hsem) ▸ hs
    | setpgid pgid => exact (show s' = s from hsem) ▸ hs
    | eventShut => exact (show s' = s.setFds _ from hsem) ▸ hs
    | deviceCloseAll =>
      obtain ⟨fds, -, rfl⟩ := hsem
      exact hs
    | dup2 fd target =>
      rcases hsem with ⟨-, -, rfl⟩ | ⟨-, rfl⟩
      · exact hs
      · exact hs
    | openFile file flags =>
      rcases hsem with ⟨-, -, rfl⟩ | ⟨-, rfl⟩
      · exact hs
      · exact hs
    | execvp argv => exact (show s' = s from hsem) ▸ hs
    | exit code => exact r.elim

theorem childExit_past {α : Type} (code : ℕ) : (childExit code : ChildProg α).Only PastCall :=
  ⟨trivial, fun r => r.elim⟩

theorem redirectFd_past (fd target : ℤ) : (redirectFd fd target).Only PastCall := by
  unfold redirectFd retry
  split_ifs
  · trivial
  · refine Only.bind ⟨fun _ => ⟨trivial, fun r => ?_⟩, fun _ => trivial⟩ fun ret => ?_
    · dsimp only [ret_bind]
      split_ifs <;> trivial
    · split_ifs
      · trivial
      · exact ⟨trivial, fun _ => trivial⟩

theorem redirectFile_past (file : Option (List Byte)) (flags : OpenFlags) (target : ℤ) :
    (redirectFile file flags target).Only PastCall := by
  unfold redirectFile
  cases file with
  | none => trivial
  | some file =>
    refine ⟨trivial, fun r => ?_⟩
    dsimp only
    by_cases hret : r.ret < 0
    · rw [if_pos hret]
      trivial
    · rw [if_neg hret]
      refine (redirectFd_past r.ret target).bind fun ret => ?_
      split_ifs
      · exact ⟨trivial, fun _ => trivial⟩
      · trivial
      · trivial

theorem childRun_past (com : Command) : (childRun com).Only PastCall := by
  unfold childRun setredirect runProcess
  refine Only.bind ((redirectFile_past _ _ _).bind fun ret => ?_) fun ret => ?_
  · split_ifs
    · trivial
    · exact redirectFile_past _ _ _
  · split_ifs
    · exact childExit_past 1
    · exact ⟨trivial, fun errno => childExit_past _⟩

/-- What a child of a pipeline does past the gate. -/
theorem stageRest_past (current : Command) (next : Bool) (pipeFd : ℤ) (pipefd : ℤ × ℤ) :
    ((if pipeFd ≥ 0 then redirectFd pipeFd STDIN_FILENO else .ret MiniShell_OK).bind fun ret =>
    if ret ≠ MiniShell_OK then childExit 1
    else (if next then redirectFd pipefd.2 STDOUT_FILENO else .ret MiniShell_OK).bind fun ret =>
      if ret ≠ MiniShell_OK then childExit 1
      else if pipefd.1 ≥ 0 then .call (.close pipefd.1) fun _ => childRun current
        else childRun current : ChildProg Unit).Only PastCall := by
  refine Only.bind ?_ fun ret => ?_
  · split_ifs
    · exact redirectFd_past _ _
    · trivial
  by_cases hret : ret ≠ MiniShell_OK
  · rw [if_pos hret]
    exact childExit_past 1
  rw [if_neg hret]
  refine Only.bind ?_ fun ret => ?_
  · split_ifs
    · exact redirectFd_past _ _
    · trivial
  · split_ifs
    · exact childExit_past 1
    · exact ⟨trivial, fun _ => childRun_past current⟩
    · exact childRun_past current

end Gate

/-! ### Redirections -/

section Redirect

variable {A : SignalRule} {goal : ChildView → Prop} {R : Descriptor → Prop} {owned : List (ℤ × Descriptor)}
  {s : ChildView} {fd target : ℤ} {d d' : Descriptor}

/-- A child past the gate, with these descriptors. -/
def Past (R : Descriptor → Prop) (owned : List (ℤ × Descriptor)) (s : ChildView) : Prop :=
  s.took = ['G'.toUInt8] ∧ Holds R owned s.fds

theorem stable_past (R : Descriptor → Prop) (owned : List (ℤ × Descriptor)) :
    Stable (childWorld A) (Past R owned) := stable_holds _ R owned

theorem Past.always (h : Past R owned s) : (childWatch goal).always s := by
  have hone : s.took.length ≤ 1 := by simp [h.1]
  exact hone

theorem Past.setFds {owned' : List (ℤ × Descriptor)} {fds : FdTable} (h : Past R owned s) (hfds : Holds R owned' fds) :
    Past R owned' (s.setFds fds) := ⟨h.1, hfds⟩

/-- A redirection is done, or the child ends. -/
def Redirected (R : Descriptor → Prop) (owned : List (ℤ × Descriptor)) (ret : ℤ) (s : ChildView) : Prop :=
  s.took = ['G'.toUInt8] ∧ (ret = MiniShell_OK → Holds R owned s.fds)

theorem stable_redirected (R : Descriptor → Prop) (owned : List (ℤ × Descriptor)) (ret : ℤ) :
    Stable (childWorld A) (Redirected R owned ret) :=
  stable_child fun fds took => took = ['G'.toUInt8] ∧ (ret = MiniShell_OK → Holds R owned fds)

theorem redirected_ret {ret : ℤ} (h : Redirected R owned ret s) :
    Safe (childWorld A) (childWatch goal) (Redirected R owned) (.ret ret) s := by
  refine Safe.ret (stable_redirected R _ ret) (fun s hs => ⟨?_, hs⟩) h
  have hone : s.took.length ≤ 1 := by simp [hs.1]
  exact hone

theorem redirectFd_safe (h : Past R ((fd, d) :: (target, d') :: owned) s) :
    Safe (childWorld A) (childWatch goal) (Redirected R ((target, d) :: owned)) (redirectFd fd target) s := by
  have hne : fd ≠ target := by
    intro heq
    have hnodup : (fd :: target :: owned.map Prod.fst).Nodup := h.2.nodup
    simp [heq] at hnodup
  unfold redirectFd
  rw [if_neg hne]
  refine Safe.bind (retry_safe (o := .dup2 fd target) (f := fun r => r)
    (stable_past R ((fd, d) :: (target, d') :: owned)) (stable_past R ((fd, d) :: (target, d) :: owned))
    (fun s hs => ⟨hs.always, fun _ => hs.1, trivial⟩)
    (fun s hs => hs.always) ?_ h) ?_
  · intro s r s' hs hsem
    rcases hsem with ⟨hret, -, hs'⟩ | ⟨hret, hs'⟩
    · have hs' : s' = s.setFds (Function.update s.fds target (s.fds fd)) := hs'
      rw [hs']
      exact .inr ⟨hret, hs.setFds hs.2.dup⟩
    · have hs' : s' = s := hs'
      rw [hs']
      exact .inl ⟨hret, hs⟩
  · intro ret s hs _
    by_cases hret : ret < 0
    · rw [if_pos hret] at hs ⊢
      exact redirected_ret ⟨hs.1, fun h => absurd h (by decide)⟩
    · rw [if_neg hret] at hs ⊢
      refine Safe.call (stable_past R _) (fun s hs => ⟨hs.always, fun h => h.elim, trivial⟩) ?_ hs
      intro s _ s' hs hsem
      have hsem : s' = s.setFds (s.fds.closeFd fd) := hsem
      rw [hsem]
      exact redirected_ret ⟨hs.1, fun _ => hs.2.close⟩

/-- What descriptor `target` is open on after a redirection. -/
def redirectedTo (file : Option (List Byte)) (flags : OpenFlags) (d : Descriptor) : Descriptor :=
  match file with
  | none => d
  | some file => .redirected file flags

theorem redirectFile_safe (file : Option (List Byte)) (flags : OpenFlags) (h : Past R ((target, d) :: owned) s) :
    Safe (childWorld A) (childWatch goal) (Redirected R ((target, redirectedTo file flags d) :: owned))
      (redirectFile file flags target) s := by
  unfold redirectFile
  cases file with
  | none => exact redirected_ret ⟨h.1, fun _ => h.2⟩
  | some file =>
    refine Safe.call (stable_past R _) (fun s hs => ⟨hs.always, fun _ => hs.1, trivial⟩) ?_ h
    intro s r s' hs hsem
    rcases hsem with ⟨hret, hfree, hs'⟩ | ⟨hret, hs'⟩
    · have hs' : s' = s.setFds (Function.update s.fds r.ret (some (.redirected file flags))) := hs'
      have hopen : Past R ((r.ret, .redirected file flags) :: (target, d) :: owned) s' := by
        rw [hs']
        exact hs.setFds (hs.2.openFile hfree _)
      rw [if_neg (by omega)]
      refine Safe.bind (redirectFd_safe hopen) ?_
      intro ret s hs _
      by_cases hok : ret ≠ MiniShell_OK
      · rw [if_pos hok]
        have hdup2 : MiniShell_ERR_DUP2 ≠ MiniShell_OK := by decide
        split_ifs
        · refine Safe.call (stable_redirected R _ ret) (fun s hs => ⟨?_, fun h => h.elim, trivial⟩) ?_ hs
          · have hone : s.took.length ≤ 1 := by simp [hs.1]
            exact hone
          · intro s _ s' hs hsem
            have hsem : s' = s.setFds (s.fds.closeFd r.ret) := hsem
            rw [hsem]
            exact redirected_ret ⟨hs.1, fun h => absurd h hdup2⟩
        · exact redirected_ret ⟨hs.1, fun h => absurd h hdup2⟩
      · rw [if_neg hok]
        rw [not_not] at hok
        exact redirected_ret ⟨hs.1, fun _ => hs.2 hok⟩
    · have hs' : s' = s := hs'
      rw [if_pos hret, hs']
      exact redirected_ret ⟨hs.1, fun h => absurd h (by decide)⟩

/-- Output is redirected first. -/
theorem setredirect_safe {com : Command} {dout din : Descriptor}
    (h : Past R ((STDOUT_FILENO, dout) :: (STDIN_FILENO, din) :: owned) s) :
    Safe (childWorld A) (childWatch goal)
      (Redirected R ((STDIN_FILENO, redirectedTo com.redirect.inputFile .rdonly din) ::
        (STDOUT_FILENO, redirectedTo com.redirect.outputFile
          (if com.redirect.append ≠ 0 then .append else .truncate) dout) :: owned))
      (setredirect com) s := by
  unfold setredirect
  refine Safe.bind (redirectFile_safe com.redirect.outputFile _ h) ?_
  intro ret s hs _
  by_cases hok : ret ≠ MiniShell_OK
  · rw [if_pos hok]
    exact redirected_ret ⟨hs.1, fun h => absurd h hok⟩
  · rw [if_neg hok]
    rw [not_not] at hok
    exact redirectFile_safe com.redirect.inputFile .rdonly ⟨hs.1, (hs.2 hok).perm (List.Perm.swap ..)⟩

/-- A child that has its descriptors runs its command with them. -/
theorem childRun_safe {com : Command} {dout din : Descriptor}
    (h : Past R ((STDOUT_FILENO, dout) :: (STDIN_FILENO, din) :: owned) s)
    (hgoal : ∀ s, Past R ((STDIN_FILENO, redirectedTo com.redirect.inputFile .rdonly din) ::
        (STDOUT_FILENO, redirectedTo com.redirect.outputFile
          (if com.redirect.append ≠ 0 then .append else .truncate) dout) :: owned) s → goal s) :
    Safe (childWorld A) (childWatch goal) (fun _ _ => True) (childRun com) s := by
  have hbyte : Stable (childWorld A) fun s => s.took = ['G'.toUInt8] := stable_child fun _ took => took = ['G'.toUInt8]
  have halways : ∀ s : ChildView, s.took = ['G'.toUInt8] → (childWatch goal).always s := by
    intro s hs
    have hone : s.took.length ≤ 1 := by simp [hs]
    exact hone
  unfold childRun
  refine Safe.bind (setredirect_safe h) ?_
  intro ret s hs _
  by_cases hok : ret ≠ MiniShell_OK
  · rw [if_pos hok]
    exact childExit_safe 1 hbyte (fun s hs => ⟨halways s hs, fun h => h.elim, trivial⟩) hs.1
  · rw [if_neg hok]
    rw [not_not] at hok
    refine Safe.call (stable_past R _) (fun s hs => ⟨hs.always, fun _ => hs.1, hgoal s hs⟩) ?_ ⟨hs.1, hs.2 hok⟩
    intro s errno s' hs hsem
    have hsem : s' = s := hsem
    rw [hsem]
    exact childExit_safe _ hbyte (fun s hs => ⟨halways s hs, fun h => h.elim, trivial⟩) hs.1

end Redirect

end DeviceRuntime
