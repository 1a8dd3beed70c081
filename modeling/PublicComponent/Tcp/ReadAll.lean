import PublicComponent.Tcp.Socket

/-!
`CTcp::tcp_readall`: repeat `tcp_read` on the unfilled tail of the buffer until it is full
or a call does not return a positive count.

The loop is given `fuel` passes, `none` being the passes running out; the results below
say that `readsize` passes are always enough. The loop counts in an `int` and stops when
`ret >= (int)readsize`. For a `readsize` above `INT_MAX` the cast is negative, so the first
positive count already stops the loop: the count is returned, however short.
-/

namespace PublicComponent.Tcp

variable (peer : Peer) (fd readbuf : Int)

/-- The `while` loop of `CTcp::tcp_readall` from `ret` bytes read, with at most `fuel`
passes: the last `length`, the final `ret`, and the world. -/
def readLoop (readsize : Nat) : Nat → Int → Io → Option (Int × Int × Io)
  | 0, _, _ => none
  | fuel + 1, ret, io =>
    let r := tcpRead peer fd (readbuf + ret) (asUint (readsize - ret)) io
    if 0 < r.1 then
      if asInt readsize ≤ asInt (ret + r.1) then some (r.1, asInt (ret + r.1), r.2)
      else readLoop readsize fuel (asInt (ret + r.1)) r.2
    else some (r.1, ret, r.2)

/-- `CTcp::tcp_readall(readbuf, readsize)`, its loop given `fuel` passes. -/
def tcpReadall (readsize : UInt32) (fuel : Nat) (io : Io) : Option (Int × Io) :=
  if readbuf = 0 ∨ readsize.toNat = 0 then some (FAILURE, io)
  else (readLoop peer fd readbuf readsize.toNat fuel 0 io).map fun r =>
    (if r.1 ≤ 0 then r.1 else r.2.1, r.2.2)

/-- How a run of the loop ends: the calls it made ask only for the unfilled tail, a
non-positive last `length` is a code, and a positive one comes with a total `ret` that
counts every byte received and reached `(int)readsize`. -/
structure ReadEnd (readsize tot : Nat) (io : Io) (length ret : Int) (io' : Io) : Prop where
  calls : ∃ calls, io'.log = io.log ++ calls ∧ Covers readbuf readsize tot calls ∧
    (0 < length → ret = tot + moved calls)
  code : length ≤ 0 → IsCode length
  full : 0 < length → asInt readsize ≤ ret ∧ tot < ret ∧ ret ≤ readsize

theorem readLoop_spec (hv : peer.Valid) {readsize : Nat} (hs : readsize < 2 ^ 32) :
    ∀ fuel (tot : Nat) io, tot < readsize → (2 ^ 31 ≤ readsize → tot = 0) →
      readsize - tot ≤ fuel → ∃ length ret io',
        readLoop peer fd readbuf readsize fuel tot io = some (length, ret, io') ∧
        ReadEnd readbuf readsize tot io length ret io'
  | 0, tot, io, hlt, _, hf => by omega
  | fuel + 1, tot, io, hlt, hbig, hf => by
    have hn := asUint_sub hlt.le hs
    obtain ⟨hlog, hcode, hcount⟩ :=
      tcpRead_outcome peer fd (readbuf + tot) (asUint (readsize - tot)) io
    simp only [readLoop]
    generalize tcpRead peer fd (readbuf + tot) (asUint (readsize - tot)) io = r
      at hlog hcode hcount ⊢
    obtain ⟨length, io₁⟩ := r
    simp only at hlog hcode hcount ⊢
    rw [hn] at hlog hcount
    have hlen : readsize - tot + tot = readsize := by omega
    by_cases hpos : 0 < length
    · obtain ⟨hlog₁, hret⟩ := hcount hpos
      obtain ⟨hb, hk1, hk2, hk3⟩ := Reply.bytes_of_pos (hv _ _) (by omega) (hret ▸ hpos)
      generalize hk : (peer io.log.length (readsize - tot)).bytes = k at hb hk1 hk2 hk3
      obtain rfl : length = k := hret ▸ hb
      -- the new total is the old one plus the count: it cannot wrap
      have hsum : asInt (tot + k) = ((tot + k : Nat) : Int) := asInt_of_lt (by omega) (by omega)
      have hcov := fun rest (h : Covers readbuf readsize (tot + k) rest) =>
        Covers.cons (c := ⟨readbuf + tot, _, peer io.log.length (readsize - tot)⟩) rfl hlen
          (by rwa [hk])
      simp only [hpos, if_true, hsum]
      split_ifs with hstop
      · exact ⟨_, _, _, rfl, ⟨⟨_, hlog₁, hcov [] (Covers.nil _ _ _), fun _ => by simp [hk]⟩,
          fun h => absurd h hpos.not_le, fun _ => ⟨hstop, by omega, by omega⟩⟩⟩
      · have hsmall : readsize < 2 ^ 31 := by
          by_contra h; unfold asInt at hstop; omega
        have hasInt : asInt readsize = readsize := asInt_of_lt (by omega) (by omega)
        obtain ⟨length', ret', io', hrun, ⟨calls, hl', hc', hm'⟩, hcode', hfull'⟩ :=
          readLoop_spec hv hs fuel (tot + k) io₁ (by omega) (by omega) (by omega)
        refine ⟨length', ret', io', hrun, ⟨⟨_ :: calls, by simp [hl', hlog₁], hcov calls hc',
          fun h => ?_⟩, hcode', fun h => ?_⟩⟩
        · rw [hm' h]; simp [hk]; omega
        · obtain ⟨h1, h2, h3⟩ := hfull' h
          exact ⟨h1, by omega, h3⟩
    · simp only [hpos, if_false]
      refine ⟨_, _, _, rfl, ⟨?_, hcode, fun h => absurd h hpos⟩⟩
      rcases hlog with h | h
      · exact ⟨[], by simp [h], Covers.nil _ _ _, fun h => absurd h hpos⟩
      · exact ⟨_, h, Covers.cons rfl hlen (Covers.nil _ _ _), fun h => absurd h hpos⟩

/-- A socket that moves one byte for every non-empty request. -/
def oneByte : Peer := fun _ len => if len = 0 then .closed else .moved 1

lemma oneByte_valid : oneByte.Valid := by
  intro n len
  unfold oneByte
  split_ifs with h
  · trivial
  · exact ⟨le_rfl, by omega⟩

/-- **`tcp_readall` returns, and reads only the unfilled tail.** For every `readsize`,
`readsize` passes of the loop are enough; every call asks for the bytes `[ret, readsize)`,
`ret` being what the earlier calls received; a result that is not positive is a code, and a
positive one is the number of bytes received, which is `readsize` when `readsize` fits an
`int`. -/
theorem tcpReadall_spec (hv : peer.Valid) (readsize : UInt32) {fuel : Nat}
    (hf : readsize.toNat ≤ fuel) (io : Io) :
    ∃ res io', tcpReadall peer fd readbuf readsize fuel io = some (res, io') ∧
      ∃ calls, io'.log = io.log ++ calls ∧ Covers readbuf readsize.toNat 0 calls ∧
        (res ≤ 0 → IsCode res) ∧ (0 < res → res = moved calls) ∧
        (0 < res → readsize.toNat < 2 ^ 31 → res = readsize.toNat) := by
  unfold tcpReadall
  split_ifs with h0
  · exact ⟨_, _, rfl, [], by simp, Covers.nil _ _ _, fun _ => .inl rfl,
      fun h => absurd h (by simp [FAILURE]), fun h => absurd h (by simp [FAILURE])⟩
  · have hs : readsize.toNat < 2 ^ 32 := readsize.toNat_lt_size
    obtain ⟨length, ret, io', hrun, ⟨calls, hl, hc, hm⟩, hcode, hfull⟩ :=
      readLoop_spec peer fd readbuf hv hs fuel 0 io (by omega) (fun _ => rfl) (by omega)
    push_cast at hrun hm
    rw [hrun]
    refine ⟨_, _, rfl, calls, hl, hc, ?_⟩
    by_cases hpos : 0 < length
    · obtain ⟨h1, h0, h2⟩ := hfull hpos
      have hm := hm hpos
      simp only [hpos.not_le, if_false, zero_add] at hm ⊢
      refine ⟨fun h => absurd h (by omega), fun _ => hm, fun _ hsmall => ?_⟩
      rw [asInt_of_lt (by omega) (by omega)] at h1
      omega
    · simp only [Int.not_lt.mp hpos, if_true]
      exact ⟨fun _ => hcode (Int.not_lt.mp hpos), fun h => absurd h hpos, fun h => absurd h hpos⟩

/-- `tcp_readall` of four bytes from a socket that moves one byte a call. -/
theorem tcpReadall_spec_four :
    ∃ res io', tcpReadall oneByte 3 4096 4 4 ⟨false, []⟩ = some (res, io') ∧
      ∃ calls, io'.log = [] ++ calls ∧ Covers 4096 (4 : UInt32).toNat 0 calls ∧
        (res ≤ 0 → IsCode res) ∧ (0 < res → res = moved calls) ∧
        (0 < res → (4 : UInt32).toNat < 2 ^ 31 → res = (4 : UInt32).toNat) :=
  tcpReadall_spec oneByte 3 4096 oneByte_valid 4 le_rfl ⟨false, []⟩

/-- With `readsize = 2^31` the first byte received ends the loop: `(int)readsize` is
negative, so `ret >= (int)readsize` holds at once, and `tcp_readall` returns `1`. -/
theorem tcpReadall_returns_short :
    tcpReadall oneByte 3 4096 2147483648 2147483648 ⟨false, []⟩ =
      some (1, ⟨false, [⟨4096, 2147483648, .moved 1⟩]⟩) := by
  decide

end PublicComponent.Tcp
