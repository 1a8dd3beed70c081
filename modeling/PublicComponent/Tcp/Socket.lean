import Mathlib.Algebra.BigOperators.Group.List

/-!
`CTcp::tcp_read` and `CTcp::tcp_write`, the single calls the `*all` loops repeat.

An `int` is an integer reduced to 32-bit two's complement wherever the code stores into
one (`asInt`), and an `unsigned int` is reduced mod `2^32` (`asUint`). The socket is an
oracle: the `n`-th call for `len` bytes gets the reply `peer n len`, which is `-1` with an
`errno`, `0`, or a count of bytes. `errno` is only ever compared with `EAGAIN` or cleared,
so the world `Io` keeps that one bit (`errno == EAGAIN`), together with a log of the calls
made: for each, the buffer address, the length asked and the reply.
-/

namespace PublicComponent.Tcp

/-- The value an `int` holds after `x` is stored into it. -/
def asInt (x : Int) : Int := (x + 2 ^ 31) % 2 ^ 32 - 2 ^ 31

/-- The value an `unsigned int` holds after `x` is converted to it. -/
def asUint (x : Int) : Nat := (x % 2 ^ 32).toNat

lemma asInt_of_lt {x : Int} (h0 : -2 ^ 31 ≤ x) (h1 : x < 2 ^ 31) : asInt x = x := by
  unfold asInt; omega

lemma asUint_sub {size done : Nat} (h : done ≤ size) (hs : size < 2 ^ 32) :
    asUint ((size : Int) - done) = size - done := by
  unfold asUint; omega

lemma asUint_sub_asInt {size done : Nat} (h : done ≤ size) (hs : size < 2 ^ 32) :
    asUint ((size : Int) - asInt done) = size - done := by
  unfold asUint asInt; omega

lemma asInt_asInt_add (x y : Int) : asInt (asInt x + y) = asInt (x + y) := by
  unfold asInt; omega

lemma asUint_asInt {done : Nat} (h : done < 2 ^ 32) : asUint (asInt done) = done := by
  unfold asUint asInt; omega

/-- `tcp.h` is not in the repository; the three codes are the values the return-value
comments of `tcp_read` and `tcp_write` give (`-1` failure, `-2` timeout, `0` peer gone). -/
def FAILURE : Int := -1

@[inherit_doc FAILURE]
def ERR_TIMEOUT : Int := -2

@[inherit_doc FAILURE]
def TCP_DISCONNECT : Int := 0

/-- What one `::recv` or `::send` reports: `-1` with `errno` set to `EAGAIN` or to another
error, `0` when the peer has closed, or a count of bytes moved, between `1` and the length
asked. -/
inductive Reply
  | error (eagain : Bool)
  | closed
  | moved (k : Nat)
  deriving DecidableEq, Repr

def Reply.ret : Reply → Int
  | .error _ => -1
  | .closed => 0
  | .moved k => k

/-- `errno == EAGAIN` after the call: only a failing call sets `errno`. -/
def Reply.eagain (before : Bool) : Reply → Bool
  | .error e => e
  | _ => before

def Reply.bytes : Reply → Nat
  | .moved k => k
  | _ => 0

def Reply.Valid (len : Nat) : Reply → Prop
  | .moved k => 1 ≤ k ∧ k ≤ len
  | _ => True

structure Call where
  addr : Int
  len : Nat
  reply : Reply
  deriving DecidableEq, Repr

structure Io where
  eagain : Bool
  log : List Call
  deriving DecidableEq, Repr

/-- The socket: the reply to the `n`-th call for `len` bytes. -/
abbrev Peer := Nat → Nat → Reply

def Peer.Valid (peer : Peer) : Prop := ∀ n len, (peer n len).Valid len

def moved : List Call → Nat
  | [] => 0
  | c :: calls => c.reply.bytes + moved calls

@[simp] lemma moved_nil : moved [] = 0 := rfl

@[simp] lemma moved_cons (c : Call) (calls : List Call) :
    moved (c :: calls) = c.reply.bytes + moved calls := rfl

def Io.call (peer : Peer) (io : Io) (addr : Int) (len : Nat) : Io :=
  { eagain := (peer io.log.length len).eagain io.eagain,
    log := io.log ++ [⟨addr, len, peer io.log.length len⟩] }

variable (peer : Peer) (fd : Int)

/-- `CTcp::tcp_read(readbuf, bufsize)` on the descriptor `fd`; `NULL` is address `0`. -/
def tcpRead (readbuf : Int) (bufsize : Nat) (io : Io) : Int × Io :=
  if readbuf = 0 ∨ bufsize = 0 ∨ fd ≤ 0 then (FAILURE, io)
  else
    let ret := asInt (peer io.log.length bufsize).ret
    let io := io.call peer readbuf bufsize
    if ret = -1 then
      if io.eagain then (ERR_TIMEOUT, { io with eagain := false }) else (FAILURE, io)
    else if ret = 0 then (TCP_DISCONNECT, io)
    else if ret < 0 then (FAILURE, io)
    else (ret, io)

/-- `CTcp::tcp_write(sendbuf, bufsize)` on the descriptor `fd`. -/
def tcpWrite (sendbuf : Int) (bufsize : Nat) (io : Io) : Int × Io :=
  if sendbuf = 0 ∨ bufsize = 0 ∨ fd ≤ 0 then (FAILURE, io)
  else
    let ret := asInt (peer io.log.length bufsize).ret
    let io := io.call peer sendbuf bufsize
    if ret < 0 ∧ io.eagain then (ERR_TIMEOUT, { io with eagain := false })
    else if ret < 0 then (FAILURE, io)
    else (ret, io)

def IsCode (x : Int) : Prop := x = FAILURE ∨ x = ERR_TIMEOUT ∨ x = TCP_DISCONNECT

/-- What one call of `tcp_read` or `tcp_write` can do: log at most the one call it was
given, and return either a code or the `int` its reply converts to. -/
structure Outcome (io : Io) (addr : Int) (len : Nat) (res : Int) (io' : Io) : Prop where
  log : io'.log = io.log ∨ io'.log = io.log ++ [⟨addr, len, peer io.log.length len⟩]
  code : res ≤ 0 → IsCode res
  count : 0 < res → io'.log = io.log ++ [⟨addr, len, peer io.log.length len⟩] ∧
    asInt (peer io.log.length len).ret = res

theorem tcpRead_outcome (addr : Int) (len : Nat) (io : Io) :
    Outcome peer io addr len (tcpRead peer fd addr len io).1 (tcpRead peer fd addr len io).2 := by
  unfold tcpRead
  dsimp only
  split_ifs <;> constructor <;> simp_all [IsCode, Io.call, FAILURE,
    ERR_TIMEOUT, TCP_DISCONNECT]
  -- a nonnegative reply that is neither `-1` nor `0` is a count
  omega

theorem tcpWrite_outcome (addr : Int) (len : Nat) (io : Io) :
    Outcome peer io addr len (tcpWrite peer fd addr len io).1
      (tcpWrite peer fd addr len io).2 := by
  unfold tcpWrite
  dsimp only
  split_ifs <;> constructor <;> simp_all [IsCode, Io.call, FAILURE,
    ERR_TIMEOUT, TCP_DISCONNECT]
  -- a nonnegative reply that is neither `-1` nor `0` is a count
  omega

lemma Reply.bytes_of_pos {r : Reply} {len : Nat} (hv : r.Valid len) (hl : len < 2 ^ 32)
    (h : 0 < asInt r.ret) : asInt r.ret = r.bytes ∧ 1 ≤ r.bytes ∧ r.bytes ≤ len ∧
      r.bytes < 2 ^ 31 := by
  cases r with
  | error e => simp [Reply.ret, asInt] at h
  | closed => simp [Reply.ret, asInt] at h
  | moved k =>
    simp only [Reply.Valid, Reply.ret, Reply.bytes, asInt] at hv h ⊢
    omega

/-- The calls of a run, from `tot` bytes moved, each ask for the rest of a buffer of `size`
bytes at `buf`: with `m` the bytes the earlier calls moved, the call is at `buf + off m`
for `size - m` bytes. The code's pointer offset `off` is its running total as it holds it. -/
def Requests (buf : Int) (off : Nat → Int) (size tot : Nat) (calls : List Call) : Prop :=
  ∀ i (h : i < calls.length),
    (calls.get ⟨i, h⟩).addr = buf + off (tot + moved (calls.take i)) ∧
    (calls.get ⟨i, h⟩).len + tot + moved (calls.take i) = size

/-- The calls ask for the bytes `[m, size)` of the buffer, `m` being what the earlier calls
moved: each call lies inside the buffer, right after the part already done. -/
def Covers (buf : Int) (size tot : Nat) (calls : List Call) : Prop :=
  Requests buf (fun m => m) size tot calls

lemma Requests.nil (buf : Int) (off : Nat → Int) (size tot : Nat) :
    Requests buf off size tot [] := fun _ h => by simp at h

lemma Requests.cons {buf : Int} {off : Nat → Int} {size tot : Nat} {c : Call}
    {calls : List Call} (ha : c.addr = buf + off tot) (hl : c.len + tot = size)
    (h : Requests buf off size (tot + c.reply.bytes) calls) :
    Requests buf off size tot (c :: calls) := by
  rintro (_ | i) hi
  · simpa [ha] using hl
  · obtain ⟨h1, h2⟩ := h i (by simpa using hi)
    simp only [List.get_eq_getElem, List.getElem_cons_succ, List.take_succ_cons,
      moved_cons] at h1 h2 ⊢
    rw [← Nat.add_assoc]
    exact ⟨h1, by omega⟩

lemma Covers.nil (buf : Int) (size tot : Nat) : Covers buf size tot [] := Requests.nil _ _ _ _

lemma Covers.cons {buf : Int} {size tot : Nat} {c : Call} {calls : List Call}
    (ha : c.addr = buf + tot) (hl : c.len + tot = size)
    (h : Covers buf size (tot + c.reply.bytes) calls) : Covers buf size tot (c :: calls) :=
  Requests.cons ha hl h

lemma Requests.covers {buf : Int} {off : Nat → Int} {size tot : Nat} {calls : List Call}
    (h : Requests buf off size tot calls) (hoff : ∀ m ≤ size, off m = m) :
    Covers buf size tot calls := fun i hi => by
  obtain ⟨h1, h2⟩ := h i hi
  exact ⟨by rw [h1, hoff _ (by omega)], h2⟩

end PublicComponent.Tcp
