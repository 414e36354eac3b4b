import VRouter.Flow.Frame
import VRouter.Flow.Run
import VRouter.Lib.WideCounter

/-!
# VRouter — the statistics of a flow

`vr_do_flow_action` counts a packet and its bytes in 32 bits each, and the wraps of both in two
smaller fields: a wrap is seen by the sum being less than what was added. `flow_stats_total` says
that the two fields together are the total since the last reset, modulo their range.
-/

namespace VRouter

/-- The lengths of the packets counted on an entry since its statistics were last reset, by
`vr_flow_reset_entry`, `vr_flow_set` or the first packet of a flow. Whatever else is done with the
entry in between leaves the statistics alone. -/
inductive FlowEntry.Counted : FlowEntry → List Nat → Prop
  | reset {e} (h : e.feStats = {}) : Counted e []
  | packet {e lens} (len : Nat) (h : Counted e lens) (hlen : len < 2 ^ 32) :
    Counted (e.countPacket len) ((if e.feFlags.newFlow then [] else lens) ++ [len])
  | other {e e' lens} (h : Counted e lens) (hstats : e'.feStats = e.feStats) : Counted e' lens

variable {s s' : FlowSys} {o : FlowOutcome} {e : FlowEntry} {lens : List Nat} {fe index len : Nat}

/-- The statistics of packets with these lengths. -/
structure FlowStats.Totals (stats : FlowStats) (lens : List Nat) : Prop where
  bytes : WideCounter 32 16 stats.flowBytes stats.flowBytesOflow lens.sum
  packets : WideCounter 32 8 stats.flowPackets stats.flowPacketsOflow lens.length

theorem FlowStats.Totals.nil : Totals {} [] := ⟨.zero, .zero⟩

theorem FlowStats.Totals.countPacket (h : e.feStats.Totals lens) (hlen : len < 2 ^ 32) :
    (e.countPacket len).feStats.Totals
      ((if e.feFlags.newFlow then [] else lens) ++ [len]) := by
  -- where the packet is the first of a flow, the count starts anew
  have hstart : (if e.feFlags.newFlow then {} else e.feStats).Totals
      (if e.feFlags.newFlow then [] else lens) := by
    split
    · exact .nil
    · exact h
  have hpackets := hstart.packets.add (show 1 < 2 ^ 32 by decide)
  simp only [Nat.lt_one_iff] at hpackets
  constructor
  · rw [List.sum_append]
    exact hstart.bytes.add hlen
  · rw [List.length_append]
    exact hpackets

theorem FlowEntry.Counted.totals (h : e.Counted lens) : e.feStats.Totals lens := by
  induction h with
  | reset h =>
    rw [h]
    exact .nil
  | packet len _ hlen ih => exact ih.countPacket hlen
  | other _ hstats ih =>
    rw [hstats]
    exact ih

/-- **The statistics of a flow are the totals of the packets counted on it.** The bytes and their
wraps are the bytes of the packets since the last reset, modulo 2^48; the packets and their wraps
are the number of the packets, modulo 2^32 times the range of eight bits. -/
theorem flow_stats_total (h : e.Counted lens) :
    e.feStats.flowBytes < 2 ^ 32 ∧ e.feStats.flowPackets < 2 ^ 32 ∧
      e.feStats.flowBytesOflow * 2 ^ 32 + e.feStats.flowBytes = lens.sum % 2 ^ 48 ∧
      e.feStats.flowPacketsOflow * 2 ^ 32 + e.feStats.flowPackets =
        lens.length % (2 ^ 32 * 2 ^ 8) :=
  ⟨h.totals.bytes.low_lt, h.totals.packets.low_lt, h.totals.bytes.value, h.totals.packets.value⟩

/-- The second packet of an entry makes the byte count wrap. -/
theorem flow_stats_total_wrapped :
    let e := (FlowEntry.zeroed.countPacket (2 ^ 32 - 1)).countPacket 3
    e.feStats.flowBytesOflow * 2 ^ 32 + e.feStats.flowBytes = 2 ^ 32 + 2 ∧
      e.feStats.flowPacketsOflow * 2 ^ 32 + e.feStats.flowPackets = 2 := by
  have hzeroed : FlowEntry.zeroed.Counted [] := .reset rfl
  have hcounted := (hzeroed.packet (2 ^ 32 - 1) (by decide)).packet 3 (by decide)
  obtain ⟨-, -, hbytes, hpackets⟩ := flow_stats_total hcounted
  exact ⟨hbytes, hpackets⟩

end VRouter
