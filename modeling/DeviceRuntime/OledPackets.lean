/-
# The packets of the display

`oled_write_commands` and `oled_write_data` over `i2c_bus_write` as one call,
which can have any outcome. The world notes each packet with its outcome. The
array that a packet is put into is filled byte by byte, and no index of it or
of the data is out of bounds.

Key definitions: `PacketCall`, `packets`, `fillPacket`, `PacketsOver`.
Key theorems: `oledWritePackets_eq`, `fillPacket_eq`, `packets_total`,
`oled_packets`.
-/
import Mathlib.Data.List.Infix
import DeviceRuntime.Lib.Safe
import DeviceRuntime.Oled

namespace DeviceRuntime

/-! ### The program -/

inductive PacketCall
  | i2cBusWrite (packet : List Byte)

abbrev PacketCall.Ret : PacketCall → Type
  | .i2cBusWrite _ => CallResult

abbrev PacketProg := Prog PacketCall PacketCall.Ret

/-- The loops of `oled_write_commands` and `oled_write_data`. -/
def packets (control : Byte) (chunk : ℕ) (data : List Byte) : PacketProg CallResult :=
  .iter (fun data =>
    if data.length = 0 then .ret (.inr ⟨0, 0⟩)
    else .call (.i2cBusWrite (control :: data.take chunk)) fun written =>
      if written.ret < 0 then .ret (.inr ⟨-1, written.errno⟩) else .ret (.inl (data.drop chunk))) data

/-- The calls are those of `i2c_bus_write`. -/
def onBus (bus : I2cBus) : (o : PacketCall) → HardwareProg o.Ret
  | .i2cBusWrite packet => i2cBusWrite bus packet

theorem oledWritePackets_eq (bus : I2cBus) (control : Byte) (chunk : ℕ) (data : List Byte) :
    oledWritePackets bus control chunk data = (packets control chunk data).link (onBus bus) := by
  have hturn : ∀ data : List Byte, (do
      if data.length = 0 then return .inr ⟨0, 0⟩
      let written ← i2cBusWrite bus (control :: data.take chunk)
      if written.ret < 0 then return .inr ⟨-1, written.errno⟩
      return .inl (data.drop chunk) : HardwareProg (List Byte ⊕ CallResult)) =
      (if data.length = 0 then .ret (.inr ⟨0, 0⟩)
      else .call (.i2cBusWrite (control :: data.take chunk)) fun written =>
        if written.ret < 0 then .ret (.inr ⟨-1, written.errno⟩) else .ret (.inl (data.drop chunk)) :
          PacketProg (List Byte ⊕ CallResult)).link (onBus bus) := by
    intro data
    split_ifs with hlen
    · rfl
    · rw [Prog.link_call]
      apply congrArg (Prog.bind (i2cBusWrite bus (control :: data.take chunk)))
      funext written
      split_ifs
      · rfl
      · rfl
  unfold oledWritePackets packets Prog.iter
  rw [Prog.link_loop]
  congr 1
  funext data
  exact hturn data

/-! ### The array -/

/-- `packet[i] = b`, if `i` is in bounds. -/
def setByte {size : ℕ} (packet : Vector Byte size) (i : ℕ) (b : Byte) : Option (Vector Byte size) :=
  if h : i < size then some (packet.set i b) else none

/-- `packet[0] = control` and `memcpy(packet + 1, data, n)`. -/
def fillPacket {size : ℕ} (packet : Vector Byte size) (control : Byte) (data : List Byte) :
    ℕ → Option (Vector Byte size)
  | 0 => setByte packet 0 control
  | n + 1 => (fillPacket packet control data n).bind fun packet =>
      data[n]?.bind fun b => setByte packet (n + 1) b

theorem setByte_eq {size : ℕ} (packet : Vector Byte size) {i : ℕ} (b : Byte) (hi : i < size) :
    ∃ packet', setByte packet i b = some packet' ∧ packet'.toList.take (i + 1) = packet.toList.take i ++ [b] := by
  refine ⟨packet.set i b, dif_pos hi, ?_⟩
  rw [Vector.toList_set]
  have hlen : i < packet.toList.length := by rwa [Vector.length_toList]
  rw [List.take_succ_eq_append_getElem (by rwa [List.length_set]), List.getElem_set_self, List.take_set_of_le (le_refl i)]

theorem fillPacket_eq {size : ℕ} (packet : Vector Byte size) (control : Byte) (data : List Byte) :
    ∀ n, n + 1 ≤ size → n ≤ data.length →
      ∃ packet', fillPacket packet control data n = some packet' ∧ packet'.toList.take (n + 1) = control :: data.take n
  | 0, hsize, _ => setByte_eq packet control hsize
  | n + 1, hsize, hdata => by
    obtain ⟨packet₁, hfill, htake⟩ := fillPacket_eq packet control data n (by omega) (by omega)
    have hn : n < data.length := by omega
    obtain ⟨packet₂, hset, htake₂⟩ := setByte_eq packet₁ data[n] hsize
    refine ⟨packet₂, ?_, ?_⟩
    · unfold fillPacket
      rw [hfill, Option.bind_some, List.getElem?_eq_getElem hn, Option.bind_some]
      exact hset
    · rw [htake₂, htake, List.take_succ_eq_append_getElem hn]
      rfl

/-! ### The bus -/

/-- The packets so far, each with what the write of it returned. -/
abbrev BusLog : Type := List (List Byte × CallResult)

/-- Every outcome can be. -/
def busSem (log : BusLog) : (o : PacketCall) → o.Ret → BusLog → Prop
  | .i2cBusWrite packet, r, log' => log' = log ++ [(packet, r)]

open Prog

abbrev packetBus : World PacketCall PacketCall.Ret BusLog := World.alone busSem

def BusLog.payloads (log : BusLog) : List Byte := log.flatMap fun x => x.1.tail

/-- What was sent of the data, and what is returned: 0 if nothing failed, and
then all was sent; or the failure of the last packet. -/
structure PacketsOver (control : Byte) (chunk : ℕ) (data : List Byte) (log : BusLog) (r : CallResult) : Prop where
  packet : ∀ x ∈ log, ∃ payload, x.1 = control :: payload ∧ 0 < payload.length ∧ payload.length ≤ chunk
  sent : log.payloads <+: data
  success : r.ret = 0 ↔ ∀ x ∈ log, 0 ≤ x.2.ret
  whole : r.ret = 0 → log.payloads = data
  failure : r.ret ≠ 0 → ∃ before last, log = before ++ [last] ∧ (∀ x ∈ before, 0 ≤ x.2.ret) ∧ last.2.ret < 0 ∧
    r = ⟨-1, last.2.errno⟩

section Packets

variable {control : Byte} {chunk : ℕ} {data : List Byte}

theorem packetsOver_nil : PacketsOver control chunk [] [] ⟨0, 0⟩ where
  packet := by simp
  sent := List.nil_prefix
  success := by simp
  whole _ := rfl
  failure h := absurd rfl h

/-- What is sent of the data that is left, after a packet. -/
theorem PacketsOver.cons {log : BusLog} {r written : CallResult} (hchunk : 0 < chunk) (hdata : data ≠ [])
    (hwritten : 0 ≤ written.ret) (h : PacketsOver control chunk (data.drop chunk) log r) :
    PacketsOver control chunk data ((control :: data.take chunk, written) :: log) r := by
  have hpos := List.length_pos_iff.mpr hdata
  have hpayloads : BusLog.payloads ((control :: data.take chunk, written) :: log) = data.take chunk ++ log.payloads := rfl
  refine ⟨?_, ?_, ?_, ?_, ?_⟩
  · intro x hx
    rcases List.mem_cons.mp hx with rfl | hx
    · refine ⟨data.take chunk, rfl, ?_, ?_⟩
      · rw [List.length_take]
        omega
      · exact List.length_take_le chunk data
    · exact h.packet x hx
  · rw [hpayloads]
    calc data.take chunk ++ log.payloads <+: data.take chunk ++ data.drop chunk :=
          (List.prefix_append_right_inj _).mpr h.sent
      _ = data := List.take_append_drop chunk data
  · rw [h.success, List.forall_mem_cons]
    exact ⟨fun hlog => ⟨hwritten, hlog⟩, fun hlog => hlog.2⟩
  · intro hret
    rw [hpayloads, h.whole hret, List.take_append_drop]
  · intro hret
    obtain ⟨before, last, hlog, hbefore, hlast, hr⟩ := h.failure hret
    refine ⟨(control :: data.take chunk, written) :: before, last, ?_, ?_, hlast, hr⟩
    · rw [hlog, List.cons_append]
    · rw [List.forall_mem_cons]
      exact ⟨hwritten, hbefore⟩

/-- The packet that failed. -/
theorem packetsOver_failed {written : CallResult} (hchunk : 0 < chunk) (hdata : data ≠ []) (hwritten : written.ret < 0) :
    PacketsOver control chunk data [(control :: data.take chunk, written)] ⟨-1, written.errno⟩ where
  packet := by
    have hpos := List.length_pos_iff.mpr hdata
    intro x hx
    rw [List.mem_singleton] at hx
    refine ⟨data.take chunk, by rw [hx], ?_, List.length_take_le chunk data⟩
    rw [List.length_take]
    omega
  sent := by
    have hpayloads : BusLog.payloads [(control :: data.take chunk, written)] = data.take chunk := List.append_nil _
    rw [hpayloads]
    exact List.take_prefix chunk data
  success := by
    constructor
    · intro h
      cases h
    · intro h
      have hlast := h _ List.mem_cons_self
      dsimp only at hlast
      omega
  whole h := by cases h
  failure _ := ⟨[], _, rfl, by simp, hwritten, rfl⟩

/-- The loop ends, whatever the writes return. -/
theorem packets_total (hchunk : 0 < chunk) : ∀ (n : ℕ) (data : List Byte), data.length = n → ∀ log : BusLog,
    Prog.Total packetBus (fun r log' => ∃ more, log' = log ++ more ∧ PacketsOver control chunk data more r)
      (packets control chunk data) log := by
  intro n
  induction n using Nat.strong_induction_on with
  | _ n ih =>
    intro data hn log
    apply Prog.Total.loop
    by_cases hlen : data.length = 0
    · have hnil := List.length_eq_zero_iff.mp hlen
      rw [Prog.unroll, if_pos hlen]
      apply Prog.Total.ret
      refine ⟨[], (List.append_nil log).symm, ?_⟩
      rw [hnil]
      exact packetsOver_nil
    · have hdata : data ≠ [] := fun hnil => hlen (List.length_eq_zero_iff.mpr hnil)
      rw [Prog.unroll, if_neg hlen]
      have hsome : ∃ r log', busSem log (.i2cBusWrite (control :: data.take chunk)) r log' := ⟨⟨0, 0⟩, _, rfl⟩
      apply Prog.Total.call hsome
      intro written log' hlog'
      have hlog' : log' = log ++ [(control :: data.take chunk, written)] := hlog'
      beta_reduce
      by_cases hwritten : written.ret < 0
      · rw [if_pos hwritten]
        exact Prog.Total.ret ⟨_, hlog', packetsOver_failed hchunk hdata hwritten⟩
      · rw [if_neg hwritten]
        have hless : (data.drop chunk).length < n := by
          rw [List.length_drop]
          omega
        apply (ih _ hless (data.drop chunk) rfl log').mono
        rintro r log'' ⟨more, rfl, hover⟩
        refine ⟨(control :: data.take chunk, written) :: more, ?_, hover.cons hchunk hdata (not_lt.mp hwritten)⟩
        rw [hlog', List.append_assoc]
        rfl

end Packets

/-- The commands go out after 0x00 in packets of up to 32, the data after 0x40
in packets of up to 16, and the arrays of 33 and 17 bytes hold them. -/
theorem oled_packets :
    (∀ (oled : Oled) (bus : I2cBus) (commands : List Byte), oled.bus = true →
      oledWriteCommands oled bus commands = (packets 0x00 32 commands).link (onBus bus)) ∧
    (∀ (oled : Oled) (bus : I2cBus) (data : List Byte), oled.bus = true →
      oledWriteData oled bus data = (packets 0x40 16 data).link (onBus bus)) ∧
    (∀ commands : List Byte, Prog.Total packetBus (fun r log => PacketsOver 0x00 32 commands log r)
      (packets 0x00 32 commands) []) ∧
    (∀ data : List Byte, Prog.Total packetBus (fun r log => PacketsOver 0x40 16 data log r)
      (packets 0x40 16 data) []) ∧
    (∀ (packet : Vector Byte 33) (left : List Byte), ∃ packet', fillPacket packet 0x00 left (left.take 32).length =
      some packet' ∧ packet'.toList.take ((left.take 32).length + 1) = 0x00 :: left.take 32) ∧
    (∀ (packet : Vector Byte 17) (left : List Byte), ∃ packet', fillPacket packet 0x40 left (left.take 16).length =
      some packet' ∧ packet'.toList.take ((left.take 16).length + 1) = 0x40 :: left.take 16) := by
  have htotal : ∀ (control : Byte) (chunk : ℕ) (data : List Byte), 0 < chunk →
      Prog.Total packetBus (fun r log => PacketsOver control chunk data log r) (packets control chunk data) [] := by
    intro control chunk data hchunk
    apply (packets_total hchunk data.length data rfl []).mono
    rintro r log ⟨more, rfl, hover⟩
    exact hover
  have hfill : ∀ (control : Byte) (chunk : ℕ) (packet : Vector Byte (chunk + 1)) (left : List Byte),
      ∃ packet', fillPacket packet control left (left.take chunk).length = some packet' ∧
        packet'.toList.take ((left.take chunk).length + 1) = control :: left.take chunk := by
    intro control chunk packet left
    have hlen : (left.take chunk).length = min chunk left.length := List.length_take
    obtain ⟨packet', hpacket, htake⟩ := fillPacket_eq packet control left (left.take chunk).length (by omega) (by omega)
    refine ⟨packet', hpacket, ?_⟩
    rw [htake, hlen, ← List.take_eq_take_min]
  refine ⟨?_, ?_, fun commands => htotal 0x00 32 commands (by decide), fun data => htotal 0x40 16 data (by decide),
    hfill 0x00 32, hfill 0x40 16⟩
  · intro oled bus commands hbus
    unfold oledWriteCommands
    rw [if_neg (by simp [hbus])]
    exact oledWritePackets_eq bus 0x00 32 commands
  · intro oled bus data hbus
    unfold oledWriteData
    rw [if_neg (by simp [hbus])]
    exact oledWritePackets_eq bus 0x40 16 data

/-- The six bytes that set the range, and a display of zeros. -/
theorem oled_packets_refresh :
    oledWriteCommands (oledClear ⟨true, Vector.replicate OLED_BUFFER_SIZE 0⟩) ⟨3, 0x3C⟩ [0x21, 0, 0x7F, 0x22, 0, 7] =
        (packets 0x00 32 [0x21, 0, 0x7F, 0x22, 0, 7]).link (onBus ⟨3, 0x3C⟩) ∧
      oledWriteData (oledClear ⟨true, Vector.replicate OLED_BUFFER_SIZE 0⟩) ⟨3, 0x3C⟩ (List.replicate 1024 0) =
        (packets 0x40 16 (List.replicate 1024 0)).link (onBus ⟨3, 0x3C⟩) :=
  ⟨oled_packets.1 _ _ _ rfl, oled_packets.2.1 _ _ _ rfl⟩

end DeviceRuntime
