import PublicComponent.Tcp.Socket

/-!
`CTcp::tcp_writeall`: repeat `tcp_write` on the unsent tail of the buffer until all of it
is sent or a call does not return a positive count.

The loop counts in an `int` as `tcp_readall` does, but stops on `(u_int)ret >= bufsize`.
The unsigned comparison keeps the loop going for a `bufsize` above `INT_MAX`; the running
total then passes `INT_MAX` and wraps, the next call is issued at `sendbuf + ret` with a
negative `ret`, and the wrapped total is what a complete send returns.
-/

namespace PublicComponent.Tcp

variable (peer : Peer) (fd sendbuf : Int)

/-- The `while` loop of `CTcp::tcp_writeall` from `ret` bytes sent, with at most `fuel`
passes: the last `length`, the final `ret`, and the world. -/
def writeLoop (bufsize : Nat) : Nat → Int → Io → Option (Int × Int × Io)
  | 0, _, _ => none
  | fuel + 1, ret, io =>
    let r := tcpWrite peer fd (sendbuf + ret) (asUint (bufsize - ret)) io
    if 0 < r.1 then
      if bufsize ≤ asUint (asInt (ret + r.1)) then some (r.1, asInt (ret + r.1), r.2)
      else writeLoop bufsize fuel (asInt (ret + r.1)) r.2
    else some (r.1, ret, r.2)

/-- `CTcp::tcp_writeall(sendbuf, bufsize)`, its loop given `fuel` passes. -/
def tcpWriteall (bufsize : UInt32) (fuel : Nat) (io : Io) : Option (Int × Io) :=
  if sendbuf = 0 ∨ bufsize.toNat = 0 then some (FAILURE, io)
  else (writeLoop peer fd sendbuf bufsize.toNat fuel 0 io).map fun r =>
    (if r.1 ≤ 0 then r.1 else r.2.1, r.2.2)

/-- How a run of the loop ends: each call was issued at `sendbuf` plus the running total as
an `int`, for the rest of the buffer; a non-positive last `length` is a code; a positive
one means every byte was sent and `ret` holds `bufsize` as an `int`. -/
structure WriteEnd (bufsize tot : Nat) (io : Io) (length ret : Int) (io' : Io) : Prop where
  calls : ∃ calls, io'.log = io.log ++ calls ∧
    Requests sendbuf (fun m => asInt m) bufsize tot calls ∧
    (0 < length → tot + moved calls = bufsize)
  code : length ≤ 0 → IsCode length
  full : 0 < length → ret = asInt bufsize

theorem writeLoop_spec (hv : peer.Valid) {bufsize : Nat} (hs : bufsize < 2 ^ 32) :
    ∀ fuel (tot : Nat) io, tot < bufsize → bufsize - tot ≤ fuel → ∃ length ret io',
      writeLoop peer fd sendbuf bufsize fuel (asInt tot) io = some (length, ret, io') ∧
      WriteEnd sendbuf bufsize tot io length ret io'
  | 0, tot, io, hlt, hf => by omega
  | fuel + 1, tot, io, hlt, hf => by
    have hn := asUint_sub_asInt hlt.le hs
    obtain ⟨hlog, hcode, hcount⟩ :=
      tcpWrite_outcome peer fd (sendbuf + asInt tot) (asUint (bufsize - asInt tot)) io
    simp only [writeLoop]
    generalize tcpWrite peer fd (sendbuf + asInt tot) (asUint (bufsize - asInt tot)) io = r
      at hlog hcode hcount ⊢
    obtain ⟨length, io₁⟩ := r
    simp only at hlog hcode hcount ⊢
    rw [hn] at hlog hcount
    have hlen : bufsize - tot + tot = bufsize := by omega
    by_cases hpos : 0 < length
    · obtain ⟨hlog₁, hret⟩ := hcount hpos
      obtain ⟨hb, hk1, hk2, hk3⟩ := Reply.bytes_of_pos (hv _ _) (by omega) (hret ▸ hpos)
      generalize hk : (peer io.log.length (bufsize - tot)).bytes = k at hb hk1 hk2 hk3
      obtain rfl : length = k := hret ▸ hb
      have hsum : asInt (asInt tot + k) = asInt ((tot + k : Nat) : Int) := by
        rw [asInt_asInt_add, Int.natCast_add]
      have hu : asUint (asInt ((tot + k : Nat) : Int)) = tot + k := asUint_asInt (by omega)
      have hreq : ∀ rest, Requests sendbuf (fun m => asInt m) bufsize (tot + k) rest →
          Requests sendbuf (fun m => asInt m) bufsize tot
            (⟨sendbuf + asInt tot, bufsize - tot, peer io.log.length (bufsize - tot)⟩ :: rest) :=
        fun rest h => Requests.cons rfl hlen (by rwa [hk])
      simp only [hpos, if_true, hsum, hu]
      split_ifs with hstop
      · have hfull : tot + k = bufsize := by omega
        exact ⟨_, _, _, rfl,
          ⟨⟨_, hlog₁, hreq [] (Requests.nil _ _ _ _), fun _ => by simp [hk, hfull]⟩,
          fun h => absurd h hpos.not_le, fun _ => by rw [hfull]⟩⟩
      · obtain ⟨length', ret', io', hrun, ⟨calls, hl', hr', hm'⟩, hcode', hfull'⟩ :=
          writeLoop_spec hv hs fuel (tot + k) io₁ (by omega) (by omega)
        refine ⟨length', ret', io', hrun, ⟨⟨_ :: calls, by simp [hl', hlog₁], hreq calls hr',
          fun h => ?_⟩, hcode', hfull'⟩⟩
        have := hm' h
        simp only [moved_cons, hk]; omega
    · simp only [hpos, if_false]
      refine ⟨_, _, _, rfl, ⟨?_, hcode, fun h => absurd h hpos⟩⟩
      rcases hlog with h | h
      · exact ⟨[], by simp [h], Requests.nil _ _ _ _, fun h => absurd h hpos⟩
      · exact ⟨_, h, Requests.cons rfl hlen (Requests.nil _ _ _ _), fun h => absurd h hpos⟩

/-- A socket that sends at most `2^31 - 1` bytes on its first call, and one byte after. -/
def firstBig : Peer := fun n len =>
  if len = 0 then .closed else if n = 0 then .moved (min len (2 ^ 31 - 1)) else .moved 1

lemma firstBig_valid : firstBig.Valid := by
  intro n len
  unfold firstBig
  split_ifs with h0 h1
  · trivial
  · exact ⟨by omega, min_le_left _ _⟩
  · exact ⟨le_rfl, by omega⟩

/-- **`tcp_writeall` returns, and a positive result is a complete send.** For every
`bufsize`, `bufsize` passes of the loop are enough, and a positive result is `bufsize` with
every byte sent. When `bufsize` fits an `int` the running total never wraps: every call asks
for the bytes `[ret, bufsize)`, `ret` being what the earlier calls sent, and a result that
is not positive is a code. -/
theorem tcpWriteall_spec (hv : peer.Valid) (bufsize : UInt32) {fuel : Nat}
    (hf : bufsize.toNat ≤ fuel) (io : Io) :
    ∃ res io', tcpWriteall peer fd sendbuf bufsize fuel io = some (res, io') ∧
      ∃ calls, io'.log = io.log ++ calls ∧
        (0 < res → res = bufsize.toNat ∧ moved calls = bufsize.toNat) ∧
        (bufsize.toNat < 2 ^ 31 →
          Covers sendbuf bufsize.toNat 0 calls ∧ (res ≤ 0 → IsCode res)) := by
  unfold tcpWriteall
  split_ifs with h0
  · exact ⟨_, _, rfl, [], by simp, fun h => absurd h (by simp [FAILURE]),
      fun _ => ⟨Covers.nil _ _ _, fun _ => .inl rfl⟩⟩
  · have hs : bufsize.toNat < 2 ^ 32 := bufsize.toNat_lt_size
    obtain ⟨length, ret, io', hrun, ⟨calls, hl, hr, hm⟩, hcode, hfull⟩ :=
      writeLoop_spec peer fd sendbuf hv hs fuel 0 io (by omega) (by omega)
    rw [show asInt ((0 : Nat) : Int) = 0 from asInt_of_lt (by omega) (by omega)] at hrun
    rw [hrun]
    refine ⟨_, _, rfl, calls, hl, ?_⟩
    have hcov : bufsize.toNat < 2 ^ 31 → Covers sendbuf bufsize.toNat 0 calls := fun h =>
      hr.covers fun m hm => asInt_of_lt (by omega) (by omega)
    by_cases hpos : 0 < length
    · have hret := hfull hpos
      simp only [hpos.not_le, if_false, zero_add] at hm ⊢
      refine ⟨fun h => ?_, fun h => ⟨hcov h, fun hle => ?_⟩⟩
      · have hsmall : bufsize.toNat < 2 ^ 31 := by
          by_contra hb; unfold asInt at hret; omega
        rw [hret, asInt_of_lt (by omega) (by omega)]
        exact ⟨rfl, hm hpos⟩
      · rw [hret, asInt_of_lt (by omega) (by omega)] at hle
        omega
    · simp only [Int.not_lt.mp hpos, if_true]
      exact ⟨fun h => absurd h hpos, fun h => ⟨hcov h, fun _ => hcode (Int.not_lt.mp hpos)⟩⟩

/-- `tcp_writeall` of four bytes to a socket that sends them all on its first call. -/
theorem tcpWriteall_spec_four :
    ∃ res io', tcpWriteall firstBig 3 4096 4 4 ⟨false, []⟩ = some (res, io') ∧
      ∃ calls, io'.log = [] ++ calls ∧
        (0 < res → res = (4 : UInt32).toNat ∧ moved calls = (4 : UInt32).toNat) ∧
        ((4 : UInt32).toNat < 2 ^ 31 →
          Covers 4096 (4 : UInt32).toNat 0 calls ∧ (res ≤ 0 → IsCode res)) :=
  tcpWriteall_spec firstBig 3 4096 firstBig_valid 4 le_rfl ⟨false, []⟩

/-- With `bufsize = 2^31 + 1`: after `2^31 - 1` bytes and one more, `ret` wraps to `-2^31`;
the third call is issued `2^31` bytes before `sendbuf`, and once every byte is sent the
result is the wrapped total `-2^31 + 1`. -/
theorem tcpWriteall_wraps :
    tcpWriteall firstBig 3 4294967296 2147483649 2147483649 ⟨false, []⟩ =
      some (-2147483647, ⟨false, [⟨4294967296, 2147483649, .moved 2147483647⟩,
        ⟨6442450943, 2, .moved 1⟩, ⟨2147483648, 1, .moved 1⟩]⟩) := by
  decide

end PublicComponent.Tcp
