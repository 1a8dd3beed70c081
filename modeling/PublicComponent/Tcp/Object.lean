import PublicComponent.Tcp.Socket
import Mathlib.Logic.Function.Basic

/-!
The life of a `CTcp`: its two constructors, `set_timeoutms`, `client_connect`,
`client_reconnect`, `server_accept`, `tcp_close`, `tcp_reset` and its destructor, on the
process's table of open descriptors.

The system is an oracle: `socket()` and `accept()` return a descriptor not open in the
process, or fail; `setsockopt` and `connect` report what they report. Each open descriptor is
held by a party: a `CTcp` object, or any other code of the process, each named by a number.
The log keeps every `close` with the party that made it and the holder the descriptor had.
Members that `CTcp(int fd)` leaves uninitialised are `none`. `tcp.h` is not in the
repository: `SUCCESS` is `0`, as the comment of `client_connect` gives.
-/

namespace PublicComponent.Tcp

open Function

def SUCCESS : Int := 0

/-- The process: who holds each open descriptor, and the `close` calls made so far, as
(caller, descriptor, its holder then). `socket()` or `accept()` returns a descriptor that is
not open, or fails (`Proc.Free`). -/
structure Proc where
  fds : Nat → Option Nat
  closes : List (Nat × Nat × Option Nat)

def Proc.open (p : Proc) (who : Nat) : Option Nat → Int × Proc
  | none => (-1, p)
  | some d => (d, { p with fds := update p.fds d (some who) })

def Proc.close (p : Proc) (who fd : Nat) : Proc :=
  { fds := update p.fds fd none, closes := p.closes ++ [(who, fd, p.fds fd)] }

def Proc.Free (p : Proc) : Option Nat → Prop
  | none => True
  | some d => p.fds d = none

structure CTcp where
  fd : Int
  port : Nat
  ip : String
  timeoutms : Option Int
  bconnect : Bool
  connTime : Option Int
  deriving DecidableEq, Repr

namespace CTcp

/-- `tcp_close()`, by the object of party `me`: closes `m_fd` when it is positive, and leaves
`m_fd` as it is. -/
def tcpClose (me : Nat) (t : CTcp) (p : Proc) : CTcp × Proc :=
  if 0 < t.fd then ({ t with bconnect := false }, p.close me t.fd.toNat) else (t, p)

def tcpReset (me : Nat) (r : Option Nat) (t : CTcp) (p : Proc) : Bool × CTcp × Proc :=
  let q := t.tcpClose me p
  let s := q.2.open me r
  (s.1 != -1, { q.1 with fd := s.1 }, s.2)

/-- `set_timeoutms(timeoutms)`: `m_timeoutms` is set first, then `SO_SNDTIMEO` and
`SO_RCVTIMEO` to `timeval timeoutms`, that is `timeoutms / 1000` seconds and
`(timeoutms % 1000) * 1000` microseconds in C's division, which rounds toward zero; `so` is
whether each `setsockopt` succeeds. -/
def setTimeoutms (timeoutms : Int) (so : Bool × Bool) (t : CTcp) : Bool × CTcp :=
  (so.1 && so.2, { t with timeoutms := some timeoutms })

/-- `CTcp(port, ip, timeoutms)` by party `me`: `socket()`, which throws when it fails, then
`set_timeoutms` when `timeoutms > 0`, which throws when it fails. -/
def create (me port : Nat) (ip : String) (timeoutms : Int) (r : Option Nat) (so : Bool × Bool)
    (p : Proc) : Except String CTcp × Proc :=
  let s := p.open me r
  if s.1 = -1 then (.error "get socket fd error.", s.2)
  else
    let t : CTcp := ⟨s.1, port, ip, some timeoutms, false, some 0⟩
    if 0 < timeoutms then
      if (t.setTimeoutms timeoutms so).1 then (.ok (t.setTimeoutms timeoutms so).2, s.2)
      else (.error "set socket time out error.", s.2)
    else (.ok t, s.2)

def ofFd (fd : Int) : CTcp := ⟨fd, 0, "", none, true, none⟩

/-- `client_connect()`, `ret` being what `::connect` returns and `eagain` whether `errno` is
`EAGAIN` then. -/
def clientConnect (ret : Int) (eagain : Bool) (now : Int) (t : CTcp) : Int × CTcp :=
  if t.fd < 0 ∨ t.ip = "" ∨ t.port = 0 then (FAILURE, t)
  else if ret < 0 ∧ eagain then (ERR_TIMEOUT, t)
  else if ret < 0 then (FAILURE, t)
  else if ret = 0 then (SUCCESS, { t with connTime := some now, bconnect := true })
  else (FAILURE, t)

/-- `client_reconnect()`. Its `if (m_timeoutms > 0)` reads `m_timeoutms`, which `CTcp(fd)`
leaves uninitialised: `junk` is what such a read gives. -/
def clientReconnect (me : Nat) (r : Option Nat) (so : Bool × Bool) (ret : Int) (eagain : Bool)
    (now junk : Int) (t : CTcp) (p : Proc) : Int × CTcp × Proc :=
  let q := t.tcpReset me r p
  if !q.1 then (FAILURE, q.2.1, q.2.2)
  else
    let t := q.2.1
    let t := if 0 < t.timeoutms.getD junk then (t.setTimeoutms (t.timeoutms.getD junk) so).2 else t
    let c := t.clientConnect ret eagain now
    (c.1, c.2, q.2.2)

/-- `server_accept()`: `NULL` when `m_fd <= 0` or `accept` fails, otherwise `new CTcp(cfd)`,
the object of party `who`. -/
def serverAccept (who : Nat) (r : Option Nat) (t : CTcp) (p : Proc) : Option CTcp × Proc :=
  if t.fd ≤ 0 then (none, p)
  else
    let s := p.open who r
    if s.1 < 0 then (none, s.2) else (some (ofFd s.1), s.2)

def destroy (me : Nat) (t : CTcp) (p : Proc) : Proc := (t.tcpClose me p).2

@[simp] lemma setTimeoutms_fd (timeoutms : Int) (so : Bool × Bool) (t : CTcp) :
    (t.setTimeoutms timeoutms so).2.fd = t.fd := rfl

@[simp] lemma clientConnect_fd (ret : Int) (eagain : Bool) (now : Int) (t : CTcp) :
    (t.clientConnect ret eagain now).2.fd = t.fd := by
  unfold clientConnect; split_ifs <;> rfl

@[simp] lemma tcpClose_fd (me : Nat) (t : CTcp) (p : Proc) : (t.tcpClose me p).1.fd = t.fd := by
  unfold tcpClose; split_ifs <;> rfl

@[simp] lemma tcpReset_ip (me : Nat) (r : Option Nat) (t : CTcp) (p : Proc) :
    (t.tcpReset me r p).2.1.ip = t.ip := by
  simp only [tcpReset]; unfold tcpClose; split_ifs <;> rfl

@[simp] lemma setTimeoutms_ip (timeoutms : Int) (so : Bool × Bool) (t : CTcp) :
    (t.setTimeoutms timeoutms so).2.ip = t.ip := rfl

lemma clientReconnect_eq (me : Nat) (r : Option Nat) (so : Bool × Bool) (ret : Int)
    (eagain : Bool) (now junk : Int) (t : CTcp) (p : Proc) :
    (t.clientReconnect me r so ret eagain now junk p).2.1.fd = (t.tcpReset me r p).2.1.fd ∧
      (t.clientReconnect me r so ret eagain now junk p).2.2 = (t.tcpReset me r p).2.2 := by
  simp only [clientReconnect]; split_ifs <;> simp

lemma serverAccept_proc (who : Nat) (r : Option Nat) (t : CTcp) (p : Proc) :
    (t.serverAccept who r p).2 = if t.fd ≤ 0 then p else (p.open who r).2 := by
  simp only [serverAccept]; split_ifs <;> rfl

lemma create_ok {me port : Nat} {ip : String} {timeoutms : Int} {r : Option Nat}
    {so : Bool × Bool} {p q : Proc} {t : CTcp} (h : create me port ip timeoutms r so p = (.ok t, q)) :
    t.fd = (p.open me r).1 ∧ q = (p.open me r).2 := by
  simp only [create] at h; split_ifs at h <;> cases h <;> exact ⟨rfl, rfl⟩

lemma serverAccept_some {who : Nat} {r : Option Nat} {srv t : CTcp} {p q : Proc}
    (h : srv.serverAccept who r p = (some t, q)) : t.fd = (p.open who r).1 ∧ q = (p.open who r).2 := by
  simp only [serverAccept] at h
  split_ifs at h <;> simp only [Prod.mk.injEq, reduceCtorEq, false_and, Option.some.injEq] at h
  obtain ⟨rfl, rfl⟩ := h
  exact ⟨rfl, rfl⟩

end CTcp

/-! ### Who holds what -/

namespace Proc

variable {p : Proc} {me who fd : Nat} {r : Option Nat}

@[simp] lemma close_fds : (p.close who fd).fds = update p.fds fd none := rfl

@[simp] lemma close_closes : (p.close who fd).closes = p.closes ++ [(who, fd, p.fds fd)] := rfl

@[simp] lemma open_closes : (p.open who r).2.closes = p.closes := by cases r <;> rfl

def Released (me : Nat) (p : Proc) : Prop := ∀ d, p.fds d = some me → d = 0

def ClosesOwn (me : Nat) (p : Proc) : Prop := ∀ e ∈ p.closes, e.1 = me → e.2.2 = some me

@[simp] lemma closesOwn_open : ClosesOwn me (p.open who r).2 ↔ ClosesOwn me p := by
  unfold ClosesOwn; rw [open_closes]

lemma ClosesOwn.close (h : ClosesOwn me p) (hw : who = me → p.fds fd = some me) :
    ClosesOwn me (p.close who fd) := by
  intro e he hme
  rcases List.mem_append.1 he with he | he
  · exact h e he hme
  · obtain rfl := List.mem_singleton.1 he
    exact hw hme

end Proc

open Proc

/-- The object of party `me`, whose `m_fd` is `fd`, owns its socket: `m_fd`, when not negative,
is open and held by it, and the only other descriptor it may hold is `0`, which `tcp_close`
never closes. -/
def Holds (me : Nat) (fd : Int) (p : Proc) : Prop :=
  (0 ≤ fd → p.fds fd.toNat = some me) ∧ ∀ d, p.fds d = some me → (d : Int) = fd ∨ d = 0

section Holds

variable {p : Proc} {me who d : Nat} {fd : Int} {r : Option Nat}

lemma Holds.tcpClose (h : Holds me fd p) (hC : ClosesOwn me p) (t : CTcp) (ht : t.fd = fd) :
    Released me (t.tcpClose me p).2 ∧ ClosesOwn me (t.tcpClose me p).2 := by
  subst ht
  unfold CTcp.tcpClose
  split_ifs with hfd
  · refine ⟨fun d hd => ?_, hC.close fun _ => h.1 (by omega)⟩
    simp only [close_fds, update_apply] at hd
    split_ifs at hd with hd'
    rcases h.2 d hd with h' | h' <;> omega
  · exact ⟨fun d hd => (h.2 d hd).elim (fun _ => by omega) id, hC⟩

lemma Proc.Released.open (h : Released me p) (hr : p.Free r) :
    Holds me (p.open me r).1 (p.open me r).2 := by
  cases r with
  | none => exact ⟨fun h => by simp [Proc.open] at h, fun d hd => .inr (h d hd)⟩
  | some d₀ =>
    refine ⟨fun _ => by simp [Proc.open], fun d hd => ?_⟩
    simp only [Proc.open, update_apply] at hd
    split_ifs at hd with hd'
    · exact .inl (by simp [Proc.open, hd'])
    · exact .inr (h d hd)

lemma Holds.open (h : Holds me fd p) (hw : who ≠ me) (hr : p.Free r) :
    Holds me fd (p.open who r).2 := by
  cases r with
  | none => exact h
  | some d₀ =>
    refine ⟨fun hfd => ?_, fun d hd => h.2 d ?_⟩
    · have : fd.toNat ≠ d₀ := fun he => by simp [Proc.Free, ← he, h.1 hfd] at hr
      simpa [Proc.open, update_apply, this] using h.1 hfd
    · simp only [Proc.open, update_apply] at hd
      split_ifs at hd
      · exact absurd (Option.some.inj hd) hw
      · exact hd

lemma Holds.close (h : Holds me fd p) (hw : who ≠ me) (hd : p.fds d = some who) :
    Holds me fd (p.close who d) := by
  refine ⟨fun hfd => ?_, fun d' hd' => h.2 d' ?_⟩
  · have : fd.toNat ≠ d := fun he => hw (by simpa [he, hd] using h.1 hfd)
    simpa [update_apply, this] using h.1 hfd
  · simp only [close_fds, update_apply] at hd'
    split_ifs at hd'
    exact hd'

end Holds

/-! ### The life of an object -/

def Owns (me : Nat) (s : CTcp × Proc) : Prop := Holds me s.1.fd s.2 ∧ ClosesOwn me s.2

/-- How the object of party `me` comes to be, `me` holding nothing but `0` and having closed
only its own before: `CTcp(port, ip, timeoutms)` returning, or `server_accept` of another object
returning it. -/
inductive Born (me : Nat) : CTcp × Proc → Prop
  | create (port : Nat) (ip : String) (timeoutms : Int) (r : Option Nat) (so : Bool × Bool)
      (p : Proc) (t : CTcp) (q : Proc) (hr : p.Free r) (hp : Released me p ∧ ClosesOwn me p)
      (h : CTcp.create me port ip timeoutms r so p = (.ok t, q)) : Born me (t, q)
  | accept (srv : CTcp) (r : Option Nat) (p : Proc) (t : CTcp) (q : Proc) (hr : p.Free r)
      (hp : Released me p ∧ ClosesOwn me p) (h : srv.serverAccept me r p = (some t, q)) :
      Born me (t, q)

/-- What can happen between the construction of the object of party `me` and its destructor: a
call of one of its members, or other code of the process getting a descriptor or closing one it
holds. `socket()` and `accept()` give a descriptor not open when they are called. -/
inductive Life (me : Nat) : CTcp × Proc → CTcp × Proc → Prop
  | setTimeoutms (t : CTcp) (p : Proc) (timeoutms : Int) (so : Bool × Bool) :
      Life me (t, p) ((t.setTimeoutms timeoutms so).2, p)
  | clientConnect (t : CTcp) (p : Proc) (ret : Int) (eagain : Bool) (now : Int) :
      Life me (t, p) ((t.clientConnect ret eagain now).2, p)
  | tcpReset (t : CTcp) (p : Proc) (r : Option Nat) (hr : (t.tcpClose me p).2.Free r) :
      Life me (t, p) ((t.tcpReset me r p).2.1, (t.tcpReset me r p).2.2)
  | clientReconnect (t : CTcp) (p : Proc) (r : Option Nat) (so : Bool × Bool) (ret : Int)
      (eagain : Bool) (now junk : Int) (hr : (t.tcpClose me p).2.Free r) :
      Life me (t, p) ((t.clientReconnect me r so ret eagain now junk p).2.1,
        (t.clientReconnect me r so ret eagain now junk p).2.2)
  | serverAccept (t : CTcp) (p : Proc) (who : Nat) (r : Option Nat) (hw : who ≠ me)
      (hr : p.Free r) : Life me (t, p) (t, (t.serverAccept who r p).2)
  | otherOpen (t : CTcp) (p : Proc) (who : Nat) (r : Option Nat) (hw : who ≠ me)
      (hr : p.Free r) : Life me (t, p) (t, (p.open who r).2)
  | otherClose (t : CTcp) (p : Proc) (who d : Nat) (hw : who ≠ me) (hd : p.fds d = some who) :
      Life me (t, p) (t, p.close who d)

section Life

variable {me : Nat} {s s' : CTcp × Proc}

lemma Born.owns (h : Born me s) : Owns me s := by
  cases h with
  | create _ _ _ r _ p _ _ hr hp h =>
    obtain ⟨hfd, rfl⟩ := CTcp.create_ok h
    exact ⟨hfd ▸ hp.1.open hr, by simpa using hp.2⟩
  | accept _ r p _ _ hr hp h =>
    obtain ⟨hfd, rfl⟩ := CTcp.serverAccept_some h
    exact ⟨hfd ▸ hp.1.open hr, by simpa using hp.2⟩

lemma Owns.tcpReset {t : CTcp} {p : Proc} (h : Owns me (t, p)) {r : Option Nat}
    (hr : (t.tcpClose me p).2.Free r) : Owns me ((t.tcpReset me r p).2.1, (t.tcpReset me r p).2.2) := by
  obtain ⟨hrel, hC⟩ := h.1.tcpClose h.2 t rfl
  exact ⟨hrel.open hr, by simpa [CTcp.tcpReset] using hC⟩

lemma Life.owns (h : Life me s s') (hs : Owns me s) : Owns me s' := by
  cases h with
  | setTimeoutms | clientConnect => simpa [Owns] using hs
  | tcpReset _ _ _ hr => exact hs.tcpReset hr
  | clientReconnect t p r so ret eagain now junk hr =>
    obtain ⟨hfd, hp⟩ := CTcp.clientReconnect_eq me r so ret eagain now junk t p
    rw [Owns, hfd, hp]
    exact hs.tcpReset hr
  | serverAccept t _ who r hw hr =>
    rw [Owns, CTcp.serverAccept_proc]
    split_ifs
    · exact hs
    · exact ⟨hs.1.open hw hr, by simpa using hs.2⟩
  | otherOpen _ _ _ _ hw hr => exact ⟨hs.1.open hw hr, by simpa using hs.2⟩
  | otherClose _ _ _ _ hw hd => exact ⟨hs.1.close hw hd, hs.2.close fun h => absurd h hw⟩

lemma Born.owns_run (hb : Born me s) (hrun : Relation.ReflTransGen (Life me) s s') : Owns me s' := by
  induction hrun with
  | refl => exact hb.owns
  | tail _ h ih => exact h.owns ih

/-- **A `CTcp` closes only its own socket.** From its construction to its destructor, through
any calls of `set_timeoutms`, `client_connect`, `tcp_reset`, `client_reconnect` and
`server_accept`, with any other code of the process getting descriptors and closing its own in
between, every `close` the object makes is of a descriptor it holds, and after its destructor it
holds none but descriptor `0`: a socket numbered `0` is never closed. -/
theorem tcp_closes_own {t : CTcp} {p : Proc} (hb : Born me s)
    (hrun : Relation.ReflTransGen (Life me) s (t, p)) :
    ClosesOwn me (t.destroy me p) ∧ (∀ d, (t.destroy me p).fds d = some me → d = 0) ∧
      (t.fd = 0 → (t.destroy me p).fds 0 = some me) := by
  obtain ⟨hH, hC⟩ := hb.owns_run hrun
  obtain ⟨hrel, hC'⟩ := hH.tcpClose hC t rfl
  refine ⟨hC', hrel, fun h0 => ?_⟩
  simpa [CTcp.destroy, CTcp.tcpClose, h0] using hH.1 h0.ge

theorem tcp_closes_own_reset : ∃ s t p, Born 1 s ∧ Relation.ReflTransGen (Life 1) s (t, p) ∧
    ClosesOwn 1 (t.destroy 1 p) ∧ (∀ d, (t.destroy 1 p).fds d = some 1 → d = 0) ∧
      (t.fd = 0 → (t.destroy 1 p).fds 0 = some 1) :=
  let t₀ : CTcp := ⟨3, 80, "10.0.0.1", some 100, false, some 0⟩
  let p₀ : Proc := ⟨update (fun _ => none) 3 (some 1), []⟩
  have hb := @Born.create 1 80 "10.0.0.1" 100 (some 3) (true, true) ⟨fun _ => none, []⟩ t₀ p₀ rfl
    ⟨fun _ h => (nomatch h), fun _ h => (nomatch h)⟩ rfl
  have hrun := Relation.ReflTransGen.single (@Life.otherOpen 1 t₀ p₀ 2 (some 4) (by decide) rfl)
    |>.tail (@Life.tcpReset 1 _ _ (some 5) rfl)
  ⟨_, _, _, hb, hrun, tcp_closes_own hb hrun⟩

end Life

end PublicComponent.Tcp
