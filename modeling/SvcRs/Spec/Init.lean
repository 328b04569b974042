import SvcRs.Native.Init
import SvcRs.Spec.Polling

/-!
# Before the main loop

What `main` has set up when its loop begins, whatever fails on the way: the descriptors that
it holds and which of them its children will inherit, the `umask`, and who may use the control
socket.

## Key results

- `ensureStdio_adds`: standard streams are opened, and nothing else
- `ensureStdio_opens`: they all are open, when `open` and `dup2` succeed
- `controlSocket_private`: every outcome of `create_control_socket`
- `startup_enters`: the state that the main loop starts in
-/

namespace SvcRs

/-! ## Standard streams -/

/-- The descriptors and those of them that children inherit. -/
def Kernel.SameTable (k k' : Kernel) : Prop := k'.fds = k.fds ∧ k'.inheritable = k.inheritable

/-- `open` fails, or gives a descriptor that was not in use. -/
theorem openDevNull_cases (k : Kernel) :
    (openDevNull k).1 = -1 ∧ k.SameTable (openDevNull k).2 ∨
      0 ≤ (openDevNull k).1 ∧ (openDevNull k).1 ∉ k.fds ∧
        (openDevNull k).2.fds = (openDevNull k).1 :: k.fds ∧
        (openDevNull k).2.inheritable = (openDevNull k).1 :: k.inheritable := by
  unfold openDevNull
  rw [Sys.bind_apply]
  split
  · next h => exact .inr ⟨h.1, h.2, rfl, rfl⟩
  · exact .inl ⟨rfl, rfl, rfl⟩

/-- `dup2` fails, or the new number is open. -/
theorem dup2Fd_cases (old new : Int) (k : Kernel) :
    k.SameTable (dup2Fd old new k).2 ∨
      (dup2Fd old new k).2.fds = new :: k.fds.erase new ∧
        (dup2Fd old new k).2.inheritable = new :: k.inheritable.erase new := by
  unfold dup2Fd
  rw [Sys.bind_apply]
  split
  · exact .inr ⟨rfl, rfl⟩
  · exact .inl ⟨rfl, rfl⟩

/-- The number is free again. -/
theorem closeFd_table {fd : Int} (hfd : 0 ≤ fd) (k : Kernel) :
    (closeFd fd k).2.fds = k.fds.erase fd ∧
      (closeFd fd k).2.inheritable = k.inheritable.erase fd := by
  unfold closeFd
  rw [if_pos hfd]
  exact ⟨rfl, rfl⟩

/-- Nothing happens, or `fd` is opened without `FD_CLOEXEC`. -/
theorem ensureFd_adds (fd : Int) {k : Kernel} (hinh : k.inheritable = k.fds) :
    (ensureFd fd k).2.inheritable = (ensureFd fd k).2.fds ∧
      ((ensureFd fd k).2.fds = k.fds ∨ fd ∉ k.fds ∧ (ensureFd fd k).2.fds = fd :: k.fds) := by
  unfold ensureFd
  rw [Sys.bind_apply]
  by_cases hopen : fd ∈ k.fds
  · have hskip : (!(isFdOpen fd k).1) = false := by simp [isFdOpen, hopen]
    rw [hskip]
    exact ⟨hinh, .inl rfl⟩
  · have hgo : (!(isFdOpen fd k).1) = true := by simp [isFdOpen, hopen]
    have hsame : (isFdOpen fd k).2 = k := rfl
    rw [hgo, if_pos rfl, hsame, Sys.bind_apply]
    have hnew := openDevNull_cases k
    generalize openDevNull k = r at hnew ⊢
    obtain ⟨nfd, k₁⟩ := r
    dsimp only at hnew ⊢
    cases hnew with
    | inl hfailed =>
      obtain ⟨rfl, hfds, hinh₁⟩ := hfailed
      rw [if_neg (by simp), Sys.pure_apply, hfds, hinh₁]
      exact ⟨hinh, .inl rfl⟩
    | inr hopened =>
      obtain ⟨hpos, hfresh, hfds, hinh₁⟩ := hopened
      rw [hinh] at hinh₁
      by_cases heq : nfd = fd
      · subst heq
        rw [if_neg (by simp), Sys.pure_apply, hfds, hinh₁]
        exact ⟨rfl, .inr ⟨hopen, rfl⟩⟩
      · rw [if_pos (by simp [hpos, heq]), Sys.bind_apply]
        have hdup := dup2Fd_cases nfd fd k₁
        generalize (dup2Fd nfd fd k₁).2 = k₂ at hdup ⊢
        obtain ⟨hclosed, hclosedInh⟩ := closeFd_table hpos k₂
        have hback : (nfd :: k.fds).erase nfd = k.fds := List.erase_cons_head ..
        rw [hclosed, hclosedInh]
        cases hdup with
        | inl hfailed =>
          -- the new descriptor is closed again
          rw [hfailed.1, hfailed.2, hfds, hinh₁, hback]
          exact ⟨rfl, .inl rfl⟩
        | inr hmoved =>
          have hkeep : (nfd :: k.fds).erase fd = nfd :: k.fds := by
            rw [List.erase_of_not_mem]
            simp [hopen, Ne.symm heq]
          have hrest : (fd :: nfd :: k.fds).erase nfd = fd :: k.fds := by
            rw [List.erase_cons_tail (by simpa using Ne.symm heq), hback]
          rw [hmoved.1, hmoved.2, hfds, hinh₁, hkeep, hrest]
          exact ⟨rfl, .inr ⟨hopen, rfl⟩⟩

/-- In the state in which `ensure_stdio` looks at `fd`, the answers to the next calls: if `fd` is
    closed, `open` gives a descriptor that is not in use, and `dup2` succeeds if it is needed. -/
structure FdAnswers (fd : Int) (k : Kernel) : Prop where
  opened : fd ∉ k.fds → 0 ≤ (k.oracle k.calls).fd ∧ (k.oracle k.calls).fd ∉ k.fds
  copied : fd ∉ k.fds → (k.oracle k.calls).fd ≠ fd → 0 ≤ (k.oracle (k.calls + 1)).status

/-- With such answers, `fd` is open afterwards. -/
theorem ensureFd_opens {fd : Int} {k : Kernel} (h : FdAnswers fd k) : fd ∈ (ensureFd fd k).2.fds := by
  unfold ensureFd
  rw [Sys.bind_apply]
  by_cases hopen : fd ∈ k.fds
  · have hskip : (!(isFdOpen fd k).1) = false := by simp [isFdOpen, hopen]
    rw [hskip]
    exact hopen
  · have hgo : (!(isFdOpen fd k).1) = true := by simp [isFdOpen, hopen]
    have hsame : (isFdOpen fd k).2 = k := rfl
    obtain ⟨hpos, hfresh⟩ := h.opened hopen
    generalize hnfd : (k.oracle k.calls).fd = nfd at hpos hfresh
    -- `open` gives `nfd`
    obtain ⟨k₁, hnew, hfds, hnext⟩ : ∃ k₁, openDevNull k = (nfd, k₁) ∧ k₁.fds = nfd :: k.fds ∧
        k₁.oracle k₁.calls = k.oracle (k.calls + 1) := by
      refine ⟨{ k with calls := k.calls + 1, fds := nfd :: k.fds
                       inheritable := nfd :: k.inheritable }, ?_, rfl, rfl⟩
      simp only [openDevNull, Sys.bind_apply, call, hnfd, hpos, hfresh, not_false_iff, and_self,
        if_true]
    rw [hgo, if_pos rfl, hsame, Sys.bind_apply, hnew]
    by_cases heq : nfd = fd
    · rw [if_neg (by simp [heq]), Sys.pure_apply, hfds, heq]
      exact List.mem_cons_self
    · -- `dup2` copies it to `fd`, and it is closed again
      have hstatus : 0 ≤ (k₁.oracle k₁.calls).status := hnext ▸ h.copied hopen (hnfd ▸ heq)
      have hcopied : (dup2Fd nfd fd k₁).2.fds = fd :: k₁.fds.erase fd := by
        have hmem : nfd ∈ k₁.fds := hfds ▸ List.mem_cons_self
        unfold dup2Fd
        rw [Sys.bind_apply]
        show (ite _ _ _ : Unit × Kernel).2.fds = _
        rw [if_pos ⟨hstatus, hmem, heq⟩]
        rfl
      rw [if_pos (by simp [hpos, heq]), Sys.bind_apply, (closeFd_table hpos _).1, hcopied,
        List.mem_erase_of_ne (Ne.symm heq)]
      exact List.mem_cons_self

/-- The answers to the calls of `ensure_stdio`, each in the state in which it is made. -/
structure StdioAnswers (k : Kernel) : Prop where
  stdin : FdAnswers 0 k
  stdout : FdAnswers 1 (ensureFd 0 k).2
  stderr : FdAnswers 2 (ensureFd 1 (ensureFd 0 k).2).2

/-- Some of the standard streams are opened that were closed, and that is all. -/
theorem ensureStdio_adds {k : Kernel} (hinh : k.inheritable = k.fds) (hnodup : k.fds.Nodup) :
    (ensureStdio k).2.inheritable = (ensureStdio k).2.fds ∧ (ensureStdio k).2.fds.Nodup ∧
      (∀ fd ∈ k.fds, fd ∈ (ensureStdio k).2.fds) ∧
      ∀ fd ∈ (ensureStdio k).2.fds, fd ∈ k.fds ∨ 0 ≤ fd ∧ fd ≤ 2 := by
  -- one stream
  have hone : ∀ fd (k : Kernel), 0 ≤ fd → fd ≤ 2 → k.inheritable = k.fds → k.fds.Nodup →
      (ensureFd fd k).2.inheritable = (ensureFd fd k).2.fds ∧ (ensureFd fd k).2.fds.Nodup ∧
        (∀ f ∈ k.fds, f ∈ (ensureFd fd k).2.fds) ∧
        ∀ f ∈ (ensureFd fd k).2.fds, f ∈ k.fds ∨ 0 ≤ f ∧ f ≤ 2 := by
    intro fd k hpos hle hinh hnodup
    obtain ⟨hinh', hcases⟩ := ensureFd_adds fd hinh
    refine ⟨hinh', ?_⟩
    cases hcases with
    | inl hsame =>
      rw [hsame]
      exact ⟨hnodup, fun f hf => hf, fun f hf => .inl hf⟩
    | inr hadded =>
      rw [hadded.2]
      refine ⟨List.nodup_cons.mpr ⟨hadded.1, hnodup⟩, fun f hf => List.mem_cons_of_mem _ hf, ?_⟩
      intro f hf
      cases List.mem_cons.mp hf with
      | inl he => exact .inr (he ▸ ⟨hpos, hle⟩)
      | inr hf => exact .inl hf
  -- and the three of them in turn
  obtain ⟨hinh₀, hnodup₀, hkeep₀, hadds₀⟩ := hone 0 k (by decide) (by decide) hinh hnodup
  obtain ⟨hinh₁, hnodup₁, hkeep₁, hadds₁⟩ := hone 1 _ (by decide) (by decide) hinh₀ hnodup₀
  obtain ⟨hinh₂, hnodup₂, hkeep₂, hadds₂⟩ := hone 2 _ (by decide) (by decide) hinh₁ hnodup₁
  refine ⟨hinh₂, hnodup₂, fun f hf => hkeep₂ f (hkeep₁ f (hkeep₀ f hf)), fun f hf => ?_⟩
  cases hadds₂ f hf with
  | inr hstd => exact .inr hstd
  | inl hf =>
    cases hadds₁ f hf with
    | inr hstd => exact .inr hstd
    | inl hf => exact hadds₀ f hf

/-- An open descriptor stays open. -/
theorem ensureFd_keeps {fd f : Int} {k : Kernel} (hinh : k.inheritable = k.fds) (hf : f ∈ k.fds) :
    f ∈ (ensureFd fd k).2.fds := by
  obtain ⟨-, hsame | hadded⟩ := ensureFd_adds fd hinh
  · rw [hsame]
    exact hf
  · rw [hadded.2]
    exact List.mem_cons_of_mem fd hf

/-- All three standard streams are open after `ensure_stdio`. -/
theorem ensureStdio_opens {k : Kernel} (hinh : k.inheritable = k.fds) (h : StdioAnswers k) {fd : Int}
    (hlo : 0 ≤ fd) (hhi : fd ≤ 2) : fd ∈ (ensureStdio k).2.fds := by
  have hinh₀ := (ensureFd_adds 0 hinh).1
  have hinh₁ := (ensureFd_adds 1 hinh₀).1
  have hrun : (ensureStdio k).2 = (ensureFd 2 (ensureFd 1 (ensureFd 0 k).2).2).2 := rfl
  rw [hrun]
  have hcases : fd = 0 ∨ fd = 1 ∨ fd = 2 := by omega
  rcases hcases with rfl | rfl | rfl
  · exact ensureFd_keeps hinh₁ (ensureFd_keeps hinh₀ (ensureFd_opens h.stdin))
  · exact ensureFd_keeps hinh₁ (ensureFd_opens h.stdout)
  · exact ensureFd_opens h.stderr

/-! ## The control socket -/

/-- The file at the path of the control socket, which others may never touch, and the group only
    when it is ready. -/
def SocketEvent.Private (path : Bytes) : SocketEvent → Prop
  | .bound _ p mode => p = path ∧ mode = 0o700#9
  | .chmod p mode => p = path ∧ mode = 0o660#9
  | .listening _ => True

/-- What `create_control_socket` has done when it returns `fd`. -/
structure ControlSocket (path : Bytes) (h h' : Setup) (fd : Int) : Prop where
  umask : h'.umask = h.umask
  /-- No descriptor is left behind. -/
  failed : fd < 0 → fd = -1 ∧ h'.k.fds = h.k.fds
  opened : 0 ≤ fd → fd ∉ h.k.fds ∧ h'.k.fds = fd :: h.k.fds ∧
    ∃ evs, h'.socket = .listening fd :: evs ∧ .bound fd path 0o700#9 ∈ evs
  inheritable : h.k.inheritable ⊆ h.k.fds → h'.k.inheritable = h.k.inheritable
  events : ∃ evs, h'.socket = evs ++ h.socket ∧ ∀ e ∈ evs, e.Private path

/-- `socket` fails, or gives a descriptor that children will not inherit. -/
theorem newSocket_cases (k : Kernel) :
    (newSocket k).1 = -1 ∧ k.SameTable (newSocket k).2 ∨
      0 ≤ (newSocket k).1 ∧ (newSocket k).1 ∉ k.fds ∧
        (newSocket k).2.fds = (newSocket k).1 :: k.fds ∧
        (newSocket k).2.inheritable = k.inheritable := by
  unfold newSocket
  rw [Sys.bind_apply]
  split
  · next h => exact .inr ⟨h.1, h.2, rfl, rfl⟩
  · exact .inl ⟨rfl, rfl, rfl⟩

/-- Only the events may differ. -/
structure Setup.Same (h h' : Setup) : Prop where
  table : h.k.SameTable h'.k
  umask : h'.umask = h.umask

/-- An address that `bind` takes has not been cut. -/
theorem bindSocket_cases (fd : Int) (path : Bytes) (h : Setup) :
    let copyLen := min path.length (sunPathLen - 1)
    let r := bindSocket fd (path.take copyLen) (sockaddrUnLen - (sunPathLen - 1) + copyLen + 1) h
    h.Same r.2 ∧ (r.1 = false ∧ r.2.socket = h.socket ∨
      r.1 = true ∧ path.length < sunPathLen - 1 ∧
        r.2.socket = .bound fd path (~~~h.umask) :: h.socket) := by
  intro copyLen r
  -- keeps the call as an equation, so that both branches speak of one result
  have hr : r = bindSocket fd (path.take copyLen)
    (sockaddrUnLen - (sunPathLen - 1) + copyLen + 1) h := rfl
  unfold bindSocket at hr
  rw [Setup.bind_apply] at hr
  split at hr
  · next hok =>
    rw [hr]
    -- the address has room for the path and its NUL only if nothing was cut off
    have hshort : path.length < sunPathLen - 1 := by
      have hlen := hok.2
      simp only [copyLen, sunPathLen, sockaddrUnLen] at hlen ⊢
      omega
    have hwhole : path.take copyLen = path := List.take_of_length_le (by simp only [copyLen]; omega)
    rw [hwhole]
    exact ⟨⟨⟨rfl, rfl⟩, rfl⟩, .inr ⟨rfl, hshort, rfl⟩⟩
  · rw [hr]
    exact ⟨⟨⟨rfl, rfl⟩, rfl⟩, .inl ⟨rfl, rfl⟩⟩

/-- `chmod` fails, or changes the mode. -/
theorem chmodFile_cases (path : Bytes) (mode : Mode) (h : Setup) :
    h.Same (chmodFile path mode h).2 ∧ ((chmodFile path mode h).2.socket = h.socket ∨
      (chmodFile path mode h).2.socket = .chmod path mode :: h.socket) := by
  unfold chmodFile
  rw [Setup.bind_apply]
  split
  · exact ⟨⟨⟨rfl, rfl⟩, rfl⟩, .inr rfl⟩
  · exact ⟨⟨⟨rfl, rfl⟩, rfl⟩, .inl rfl⟩

/-- `listen` fails, or the socket is ready. -/
theorem listenSocket_cases (fd : Int) (h : Setup) :
    h.Same (listenSocket fd h).2 ∧
      ((listenSocket fd h).1 = false ∧ (listenSocket fd h).2.socket = h.socket ∨
        (listenSocket fd h).1 = true ∧
          (listenSocket fd h).2.socket = .listening fd :: h.socket) := by
  unfold listenSocket
  rw [Setup.bind_apply]
  split
  · exact ⟨⟨⟨rfl, rfl⟩, rfl⟩, .inr ⟨rfl, rfl⟩⟩
  · exact ⟨⟨⟨rfl, rfl⟩, rfl⟩, .inl ⟨rfl, rfl⟩⟩

/-- What `create_control_socket` has done once it has the socket `fd`. -/
structure Publishes (fd : Int) (path : Bytes) (oldUmask : Mode) (h h' : Setup) (r : Int) :
    Prop where
  umask : h'.umask = oldUmask
  outcome : r = -1 ∧ h'.k.fds = h.k.fds.erase fd ∧
    h'.k.inheritable = h.k.inheritable.erase fd ∨ r = fd ∧ path.length < sunPathLen - 1 ∧
    h.k.SameTable h'.k ∧ ∃ evs, h'.socket = .listening fd :: evs ∧ .bound fd path 0o700#9 ∈ evs
  events : ∃ evs, h'.socket = evs ++ h.socket ∧ ∀ e ∈ evs, e.Private path

/-- From the socket to the listening one. -/
theorem publishSocket_publishes {fd : Int} (hfd : 0 ≤ fd) (path : CStrBuf) (oldUmask : Mode)
    {h : Setup} (humask : h.umask = 0o077#9) : Publishes fd path.bytes oldUmask h
      (publishSocket fd path oldUmask h).2 (publishSocket fd path oldUmask h).1 := by
  unfold publishSocket
  rw [Setup.bind_apply]
  obtain ⟨hsame, hbound⟩ := bindSocket_cases fd path.bytes h
  generalize bindSocket fd _ _ h = r at hsame hbound ⊢
  obtain ⟨ok, h₁⟩ := r
  dsimp only at hsame hbound ⊢
  cases hbound with
  | inl hrefused =>
    obtain ⟨rfl, hsocket⟩ := hrefused
    have hclosed := closeFd_table hfd h₁.k
    rw [hsame.table.1, hsame.table.2] at hclosed
    exact ⟨rfl, .inl ⟨rfl, hclosed⟩, [], hsocket, fun e he => absurd he List.not_mem_nil⟩
  | inr htaken =>
    obtain ⟨rfl, hshort, hsocket⟩ := htaken
    have hmode : ~~~h.umask = 0o700#9 := by
      rw [humask]
      decide
    rw [hmode] at hsocket
    simp only [Bool.not_true, Bool.false_eq_true, if_false, Setup.bind_apply]
    -- the `umask` is as before, and the file is already there
    obtain ⟨hsame₂, hchmod⟩ := chmodFile_cases path.bytes 0o660#9 (setUmask oldUmask h₁).2
    generalize chmodFile path.bytes 0o660#9 (setUmask oldUmask h₁).2 = r₂ at hsame₂ hchmod ⊢
    obtain ⟨u, h₂⟩ := r₂
    dsimp only at hsame₂ hchmod ⊢
    have htable : h.k.SameTable h₂.k :=
      ⟨hsame₂.table.1.trans hsame.table.1, hsame₂.table.2.trans hsame.table.2⟩
    have hold : (setUmask oldUmask h₁).2.socket = .bound fd path.bytes 0o700#9 :: h.socket :=
      hsocket
    rw [hold] at hchmod
    have hevents : ∃ evs, h₂.socket = evs ++ h.socket ∧ (∀ e ∈ evs, e.Private path.bytes) ∧
        .bound fd path.bytes 0o700#9 ∈ evs := by
      cases hchmod with
      | inl hskipped => exact ⟨[_], hskipped, by simp [SocketEvent.Private], by simp⟩
      | inr hdone => exact ⟨[_, _], hdone, by simp [SocketEvent.Private], by simp⟩
    obtain ⟨evs, hevs, hprivate, hmem⟩ := hevents
    obtain ⟨hsame₃, hlisten⟩ := listenSocket_cases fd h₂
    generalize listenSocket fd h₂ = r₃ at hsame₃ hlisten ⊢
    obtain ⟨ready, h₃⟩ := r₃
    dsimp only at hsame₃ hlisten ⊢
    have hrestored : h₃.umask = oldUmask := hsame₃.umask.trans hsame₂.umask
    have htable₃ : h.k.SameTable h₃.k :=
      ⟨hsame₃.table.1.trans htable.1, hsame₃.table.2.trans htable.2⟩
    cases hlisten with
    | inl hrefused =>
      obtain ⟨rfl, hsocket₃⟩ := hrefused
      have hclosed := closeFd_table hfd h₃.k
      rw [htable₃.1, htable₃.2] at hclosed
      exact ⟨hrestored, .inl ⟨rfl, hclosed⟩, evs, hsocket₃.trans hevs, hprivate⟩
    | inr hready =>
      obtain ⟨rfl, hsocket₃⟩ := hready
      rw [hevs] at hsocket₃
      refine ⟨hrestored, .inr ⟨rfl, hshort, htable₃, _, hsocket₃, List.mem_append_left _ hmem⟩,
        .listening fd :: evs, hsocket₃, fun e he => ?_⟩
      cases List.mem_cons.mp he with
      | inl heq =>
        subst heq
        trivial
      | inr hold => exact hprivate e hold

/-- Every outcome: the `umask` is restored, a failure leaves no descriptor behind, and from the
    first moment on the file is nobody's but the owner's until the group gets it. A root that is
    too long for a socket address gives no socket, and none at another path. -/
theorem controlSocket_private (root : CStrBuf) (h : Setup) :
    ControlSocket (controlPath root).bytes h (createControlSocket root h).2
        (createControlSocket root h).1 ∧
      (sunPathLen - 1 ≤ (controlPath root).bytes.length → (createControlSocket root h).1 = -1) := by
  unfold createControlSocket
  simp only [Setup.bind_apply]
  -- after `unlink` and `umask`
  generalize hstart : setUmask 0o077#9
    (onKernel (emit (.unlinked (controlPath root).bytes)) h).2 = r
  obtain ⟨old, h₁⟩ := r
  have hold : old = h.umask := (congrArg Prod.fst hstart).symm
  have hmask : h₁.umask = 0o077#9 := (congrArg (fun r => r.2.umask) hstart).symm
  have hfds : h₁.k.fds = h.k.fds := (congrArg (fun r => r.2.k.fds) hstart).symm
  have hinh : h₁.k.inheritable = h.k.inheritable :=
    (congrArg (fun r => r.2.k.inheritable) hstart).symm
  have hevs : h₁.socket = h.socket := (congrArg (fun r => r.2.socket) hstart).symm
  dsimp only
  have hnew := newSocket_cases h₁.k
  unfold onKernel
  generalize newSocket h₁.k = s at hnew ⊢
  obtain ⟨fd, k₂⟩ := s
  dsimp only at hnew ⊢
  cases hnew with
  | inl hfailed =>
    obtain ⟨rfl, htable⟩ := hfailed
    have hnone : (-1 : Int) < 0 := by decide
    rw [if_pos hnone]
    exact ⟨⟨hold, fun _ => ⟨rfl, htable.1.trans hfds⟩,
      fun hpos => absurd hnone (Int.not_lt.mpr hpos), fun _ => htable.2.trans hinh, [], hevs,
      fun e he => absurd he List.not_mem_nil⟩, fun _ => rfl⟩
  | inr hopened =>
    obtain ⟨hpos, hfresh, hfds₂, hinh₂⟩ := hopened
    rw [hfds] at hfresh hfds₂
    rw [if_neg (Int.not_lt.mpr hpos)]
    obtain ⟨humask, houtcome, hevents⟩ :=
      publishSocket_publishes hpos (controlPath root) old (h := { h₁ with k := k₂ }) hmask
    generalize publishSocket fd (controlPath root) old { h₁ with k := k₂ } = r
      at humask houtcome hevents ⊢
    obtain ⟨res, h₃⟩ := r
    dsimp only at humask houtcome hevents ⊢
    rw [hevs] at hevents
    cases houtcome with
    | inl hfailed =>
      obtain ⟨rfl, hclosed, hclosedInh⟩ := hfailed
      rw [hfds₂, List.erase_cons_head] at hclosed
      rw [hinh₂, hinh] at hclosedInh
      refine ⟨⟨humask.trans hold, fun _ => ⟨rfl, hclosed⟩, fun hpos => absurd hpos (by decide),
        fun hsub => ?_, hevents⟩, fun _ => rfl⟩
      -- a new descriptor is not an inherited one
      rw [hclosedInh, List.erase_of_not_mem fun hmem => hfresh (hsub hmem)]
    | inr hdone =>
      obtain ⟨rfl, hshort, htable, evs, hsocket, hmem⟩ := hdone
      exact ⟨⟨humask.trans hold, fun hneg => absurd hneg (Int.not_lt.mpr hpos), fun _ =>
        ⟨hfresh, htable.1.trans hfds₂, evs, hsocket, hmem⟩,
        fun _ => htable.2.trans (hinh₂.trans hinh), hevents⟩,
      fun hlong => absurd hshort (Nat.not_lt.mpr hlong)⟩

/-! ## The descriptors of the supervisor -/

/-- Open are the standard streams and `own`; only the former are inherited. -/
structure Tidy (own : Multiset Int) (k : Kernel) : Prop where
  fds : (k.fds : Multiset Int) = {0, 1, 2} + own
  nodup : k.fds.Nodup
  above : ∀ fd ∈ own, 2 < fd
  inheritable : k.inheritable = k.fds.filter fun fd => fd ≤ 2

section

variable {own : Multiset Int} {k k' : Kernel}

/-- The table is the same. -/
theorem Tidy.same (h : Tidy own k) (hsame : k.SameTable k') : Tidy own k' := by
  obtain ⟨hfds, hinh⟩ := hsame
  refine ⟨?_, ?_, h.above, ?_⟩
  · rw [hfds]
    exact h.fds
  · rw [hfds]
    exact h.nodup
  · rw [hinh, hfds]
    exact h.inheritable

/-- The standard streams are open. -/
theorem Tidy.mem_of_std (h : Tidy own k) {fd : Int} (hlo : 0 ≤ fd) (hhi : fd ≤ 2) : fd ∈ k.fds := by
  rw [← Multiset.mem_coe, h.fds]
  apply Multiset.mem_add.mpr
  have hcases : fd = 0 ∨ fd = 1 ∨ fd = 2 := by omega
  exact .inl (by simpa using hcases)

/-- What the supervisor owns is open. -/
theorem Tidy.mem_of_own (h : Tidy own k) {fd : Int} (hfd : fd ∈ own) : fd ∈ k.fds := by
  rw [← Multiset.mem_coe, h.fds]
  exact Multiset.mem_add.mpr (.inr hfd)

/-- The standard streams are open, so a new descriptor is none of them. -/
theorem Tidy.open (h : Tidy own k) {fd : Int} (hpos : 0 ≤ fd) (hnew : fd ∉ k.fds)
    (hfds : k'.fds = fd :: k.fds) (hinh : k'.inheritable = k.inheritable) :
    Tidy (ownFd fd + own) k' := by
  -- 0, 1 and 2 are in use, so the new descriptor is above them
  have habove : 2 < fd := by
    apply Int.not_le.mp
    intro hle
    exact hnew (h.mem_of_std hpos hle)
  refine ⟨?_, ?_, fun f hf => ?_, ?_⟩
  · rw [hfds, ← Multiset.cons_coe, h.fds, ownFd_open hpos, Multiset.singleton_add]
    exact (Multiset.add_cons fd {0, 1, 2} own).symm
  · rw [hfds]
    exact List.nodup_cons.mpr ⟨hnew, h.nodup⟩
  · rw [ownFd_open hpos] at hf
    cases Multiset.mem_add.mp hf with
    | inl he => exact (Multiset.mem_singleton.mp he) ▸ habove
    | inr hf => exact h.above f hf
  -- what is inheritable is what it was, as the new number is above 2
  · have hskip : (fd :: k.fds).filter (fun f => f ≤ 2) = k.fds.filter fun f => f ≤ 2 := by
      rw [List.filter_cons_of_neg]
      simpa using habove
    rw [hinh, hfds, hskip]
    exact h.inheritable

/-- The supervisor gives a descriptor up. -/
theorem Tidy.close {fd : Int} (h : Tidy (ownFd fd + own) k) : Tidy own (closeFd fd k).2 := by
  by_cases hpos : 0 ≤ fd
  · obtain ⟨hfds, hinh⟩ := closeFd_table hpos k
    rw [ownFd_open hpos] at h
    have hmem : fd ∈ ({fd} : Multiset Int) + own :=
      Multiset.mem_add.mpr (.inl (Multiset.mem_singleton_self fd))
    have habove := h.above fd hmem
    have hrest : ({0, 1, 2} : Multiset Int) + ({fd} + own) = fd ::ₘ ({0, 1, 2} + own) := by
      rw [Multiset.singleton_add, Multiset.add_cons]
    refine ⟨?_, ?_, fun f hf => h.above f (Multiset.mem_add.mpr (.inr hf)), ?_⟩
    · rw [hfds, ← Multiset.coe_erase, h.fds, hrest, Multiset.erase_cons_head]
    · rw [hfds]
      exact h.nodup.erase fd
    · -- it was not among those that are inherited
      have hnot : fd ∉ k.fds.filter fun f => f ≤ 2 := by
        intro hin
        have hle := (List.mem_filter.mp hin).2
        simp only [decide_eq_true_eq] at hle
        omega
      rw [hinh, hfds, h.inheritable, List.erase_of_not_mem hnot, ← List.erase_filter,
        List.erase_of_not_mem hnot]
  · have hnone : ownFd fd = 0 := if_neg hpos
    rw [hnone, zero_add] at h
    unfold closeFd
    rw [if_neg hpos]
    exact h

/-! ### The log -/

/-- `open` fails, or gives a descriptor that was not in use. -/
theorem openFile_table (path : Bytes) (mode : OpenMode) (k : Kernel) :
    (openFile path mode k).1 = -1 ∧ k.SameTable (openFile path mode k).2 ∨
      0 ≤ (openFile path mode k).1 ∧ (openFile path mode k).1 ∉ k.fds ∧
        (openFile path mode k).2.fds = (openFile path mode k).1 :: k.fds ∧
        (openFile path mode k).2.inheritable = (openFile path mode k).1 :: k.inheritable := by
  unfold openFile
  rw [Sys.bind_apply]
  split
  · next h => exact .inr ⟨h.1, h.2, rfl, rfl⟩
  · exact .inl ⟨rfl, rfl, rfl⟩

/-- The log is one of the supervisor's descriptors. -/
theorem supervisorLogInit_tidy (h : Tidy own k) {log : SupervisorLog} (hlog : log.fd = -1) :
    Tidy (ownFd (supervisorLogInit log k).1.fd + own) (supervisorLogInit log k).2 := by
  unfold supervisorLogInit
  rw [Sys.bind_apply]
  have hopen := openFile_table supervisorLogPath .append k
  generalize openFile supervisorLogPath .append k = r at hopen ⊢
  obtain ⟨fd, k₁⟩ := r
  dsimp only at hopen ⊢
  cases hopen with
  | inl hfailed =>
    -- `open` failed: the supervisor goes on without a log
    obtain ⟨rfl, hsame⟩ := hfailed
    rw [if_neg (by decide), Sys.pure_apply, hlog, ownFd_none, zero_add]
    exact h.same hsame
  | inr hopened =>
    obtain ⟨hpos, hnew, hfds, hinh⟩ := hopened
    rw [if_pos hpos]
    -- `O_CLOEXEC` is set on the descriptor that was just opened
    have hinherited : (k₁.inheritable.erase fd) = k.inheritable := by
      rw [hinh, List.erase_cons_head]
    show Tidy _ (seekEnd fd (setCloexec fd k₁).2).2
    exact h.open hpos hnew hfds hinherited

/-- The log is closed, and opened again under its name. -/
theorem supervisorLogRotate_tidy {log : SupervisorLog} (h : Tidy (ownFd log.fd + own) k) :
    Tidy (ownFd (supervisorLogRotate log k).1.fd + own) (supervisorLogRotate log k).2 := by
  unfold supervisorLogRotate
  simp only [Sys.bind_apply]
  have hclosed := h.close
  generalize (closeFd log.fd k).2 = k₁ at hclosed ⊢
  have hsame : k₁.SameTable
      (emit (.rename supervisorLogPath (supervisorArchive (wallNow k₁).1)) (wallNow k₁).2).2 :=
    ⟨rfl, rfl⟩
  exact supervisorLogInit_tidy (hclosed.same hsame) rfl

/-- It stays so, whether it is rotated or not. -/
theorem supervisorLog_tidy (msg : Bytes) {log : SupervisorLog} (h : Tidy (ownFd log.fd + own) k) :
    Tidy (ownFd (supervisorLog msg log k).1.fd + own) (supervisorLog msg log k).2 := by
  unfold supervisorLog
  split
  · exact h
  · simp only [Sys.bind_apply]
    split
    · split
      · apply supervisorLogRotate_tidy
        exact h.same ⟨rfl, rfl⟩
      · exact h.same ⟨rfl, rfl⟩
    · exact h.same ⟨rfl, rfl⟩

/-! ### The pipe and the socket -/

/-- `pipe` fails, or gives two descriptors that were not in use. -/
theorem newPipe_table (k : Kernel) :
    (newPipe k).1 = none ∧ k.SameTable (newPipe k).2 ∨
      ∃ r w, (newPipe k).1 = some (r, w) ∧ 0 ≤ r ∧ 0 ≤ w ∧ r ≠ w ∧ r ∉ k.fds ∧ w ∉ k.fds ∧
        (newPipe k).2.fds = r :: w :: k.fds ∧ (newPipe k).2.inheritable = k.inheritable := by
  simp only [newPipe, Sys.bind_apply]
  split
  · next r w _ =>
    split
    · next h => exact .inr ⟨r, w, rfl, h.1, h.2.1, h.2.2.1, h.2.2.2.1, h.2.2.2.2, rfl, rfl⟩
    · exact .inl ⟨rfl, rfl, rfl⟩
  · exact .inl ⟨rfl, rfl, rfl⟩

/-- Both ends of the self-pipe are the supervisor's. -/
theorem initSignalPipe_tidy (h : Tidy own k) :
    Tidy (ownFd (initSignalPipe k).1.1 + (ownFd (initSignalPipe k).1.2 + own))
      (initSignalPipe k).2 := by
  unfold initSignalPipe
  rw [Sys.bind_apply]
  have hpipe := newPipe_table k
  generalize newPipe k = p at hpipe ⊢
  obtain ⟨ends, k₁⟩ := p
  dsimp only at hpipe ⊢
  cases hpipe with
  | inl hfailed =>
    obtain ⟨rfl, hsame⟩ := hfailed
    show Tidy (ownFd (-1) + (ownFd (-1) + own)) k₁
    rw [ownFd_none, zero_add, zero_add]
    exact h.same hsame
  | inr hopened =>
    obtain ⟨r, w, rfl, hr, hw, hne, hrNew, hwNew, hfds, hinh⟩ := hopened
    -- one end, then the other
    have hwrite : Tidy (ownFd w + own) { k with fds := w :: k.fds } := h.open hw hwNew rfl rfl
    have hrNew' : r ∉ w :: k.fds := by simp [hne, hrNew]
    exact hwrite.open hr hrNew' hfds hinh

end

/-! ## The state in which the loop begins -/

/-- What the main loop is given; the last three are what the model of the loop assumes. -/
structure EntersLoop (h h' : Setup) (r : Started) : Prop where
  descriptors : (h'.k.fds : Multiset Int) = {0, 1, 2} +
    (ownFd r.ctrlFd + (ownFd r.sigFd + (ownFd r.sigPipeW + ownFd r.log.fd)))
  umask : h'.umask = h.umask
  nodup : h'.k.fds.Nodup
  inheritable : h'.k.inheritable = h'.k.fds.filter fun fd => fd ≤ 2
  endpoints : Endpoints h'.k.fds r.sigFd r.ctrlFd

/-- The standard streams can be opened if need be. Whatever fails after that: every descriptor
    that was opened is still known, none was opened twice, and the children will inherit the
    standard streams only. -/
theorem startup_enters (arg : Option Bytes) {h : Setup} (hinh : h.k.inheritable = h.k.fds)
    (hnodup : h.k.fds.Nodup) (hstd : ∀ fd ∈ h.k.fds, 0 ≤ fd ∧ fd ≤ 2)
    (hanswers : StdioAnswers h.k) :
    EntersLoop h (startup arg h).2 (startup arg h).1 := by
  obtain ⟨hinh₁, hnodup₁, -, hadds⟩ := ensureStdio_adds hinh hnodup
  let k₁ := (ensureStdio h.k).2
  have hrange : ∀ fd ∈ k₁.fds, 0 ≤ fd ∧ fd ≤ 2 := by
    intro fd hfd
    cases hadds fd hfd with
    | inl hold => exact hstd fd hold
    | inr hnew => exact hnew
  have htidy₁ : Tidy 0 k₁ := by
    refine ⟨?_, hnodup₁, fun fd hfd => absurd hfd (Multiset.notMem_zero fd), ?_⟩
    · rw [add_zero]
      apply (Multiset.Nodup.ext (Multiset.coe_nodup.mpr hnodup₁) (by decide)).mpr
      intro fd
      rw [Multiset.mem_coe]
      constructor
      · intro hfd
        have hle := hrange fd hfd
        have hcases : fd = 0 ∨ fd = 1 ∨ fd = 2 := by omega
        simpa using hcases
      · intro hfd
        have hcases : fd = 0 ∨ fd = 1 ∨ fd = 2 := by simpa using hfd
        exact ensureStdio_opens hinh hanswers (by omega) (by omega)
    · rw [hinh₁]
      symm
      apply List.filter_eq_self.mpr
      intro fd hfd
      simpa using (hrange fd hfd).2
  -- the log, its first line, and the pipe
  let l₂ := supervisorLogInit {} k₁
  have htidy₂ : Tidy (ownFd l₂.1.fd + 0) l₂.2 := supervisorLogInit_tidy htidy₁ rfl
  let l₃ := supervisorLog (bytesOf "svc-rs starting") l₂.1 l₂.2
  have htidy₃ : Tidy (ownFd l₃.1.fd + 0) l₃.2 := supervisorLog_tidy _ htidy₂
  let p₄ := initSignalPipe l₃.2
  have htidy₄ : Tidy (ownFd p₄.1.1 + (ownFd p₄.1.2 + (ownFd l₃.1.fd + 0))) p₄.2 :=
    initSignalPipe_tidy htidy₃
  rw [add_zero] at htidy₄
  let c₅ := createControlSocket (rootArg arg) { h with k := p₄.2 }
  have hsocket : ControlSocket _ { h with k := p₄.2 } c₅.2 c₅.1 :=
    (controlSocket_private (rootArg arg) { h with k := p₄.2 }).1
  have hsub : p₄.2.inheritable ⊆ p₄.2.fds := by
    rw [htidy₄.inheritable]
    exact fun fd hfd => (List.mem_filter.mp hfd).1
  have htidy₅ : Tidy (ownFd c₅.1 + (ownFd p₄.1.1 + (ownFd p₄.1.2 + ownFd l₃.1.fd))) c₅.2.k := by
    by_cases hpos : 0 ≤ c₅.1
    · obtain ⟨hnew, hfds, -⟩ := hsocket.opened hpos
      exact htidy₄.open hpos hnew hfds (hsocket.inheritable hsub)
    · obtain ⟨hnone, hfds⟩ := hsocket.failed (Int.not_le.mp hpos)
      rw [hnone, ownFd_none, zero_add]
      exact htidy₄.same ⟨hfds, hsocket.inheritable hsub⟩
  have hrun : startup arg h = (⟨rootArg arg, l₃.1, p₄.1.1, p₄.1.2, c₅.1⟩, c₅.2) := rfl
  rw [hrun]
  have hctrl : 0 ≤ c₅.1 → c₅.1 ∈ c₅.2.k.fds := fun hpos =>
    htidy₅.mem_of_own (by simp [ownFd_open hpos])
  have hsig : 0 ≤ p₄.1.1 → p₄.1.1 ∈ c₅.2.k.fds := fun hpos =>
    htidy₅.mem_of_own (by simp [ownFd_open hpos])
  refine ⟨htidy₅.fds, hsocket.umask, htidy₅.nodup, htidy₅.inheritable, htidy₅.nodup, hsig, hctrl,
    ?_⟩
  intro hpos he
  have hpos : 0 ≤ p₄.1.1 := hpos
  have he : p₄.1.1 = c₅.1 := he
  -- the same descriptor would be held twice
  have hall := Multiset.coe_nodup.mpr htidy₅.nodup
  rw [htidy₅.fds, ← he, ownFd_open hpos] at hall
  have hcount := Multiset.nodup_iff_count_le_one.mp hall p₄.1.1
  simp only [Multiset.count_add, Multiset.count_singleton_self] at hcount
  omega

/-- A process without a standard input. -/
def withoutStdin : Setup where
  k := { (openingOn plainFiles).world.k with calls := 0, fds := [1, 2], inheritable := [1, 2] }
  umask := 0o022#9

/-- Standard input is missing, and `open` gives another number for it. -/
theorem startup_enters_withoutStdin :
    (startup none withoutStdin).1.sigFd = 314 ∧ (startup none withoutStdin).1.ctrlFd = 18 ∧
      EntersLoop withoutStdin (startup none withoutStdin).2 (startup none withoutStdin).1 := by
  have hanswers : StdioAnswers withoutStdin.k :=
    ⟨⟨by decide +kernel, by decide +kernel⟩, ⟨by decide +kernel, by decide +kernel⟩,
      ⟨by decide +kernel, by decide +kernel⟩⟩
  have henters := startup_enters none (h := withoutStdin) rfl (by decide) (by decide) hanswers
  exact ⟨by decide +kernel, by decide +kernel, henters⟩

end SvcRs
