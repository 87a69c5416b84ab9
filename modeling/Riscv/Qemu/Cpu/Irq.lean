import Riscv.Qemu.Cpu.Routing
import Riscv.Word.Scan

namespace RiscvEmulators.Qemu.Cpu
open Word Transition

def mipSsip : W64 := 0x2
def mipVssip : W64 := 0x4
def mipMsip : W64 := 0x8
def mipStip : W64 := 0x20
def mipVstip : W64 := 0x40
def mipMtip : W64 := 0x80
def mipSeip : W64 := 0x200
def mipVseip : W64 := 0x400
def mipMeip : W64 := 0x800
def mipSgeip : W64 := 0x1000
def mipLcofip : W64 := 0x2000

def mModeInterrupts : W64 := mipMsip ||| mipMtip ||| mipMeip
def sModeInterrupts : W64 := mipSsip ||| mipStip ||| mipSeip
def vsModeInterrupts : W64 := mipVssip ||| mipVstip ||| mipVseip
def hsModeInterrupts : W64 := mipSgeip ||| vsModeInterrupts

def irqSExt : Nat := 9
def irqMExt : Nat := 11
def hstatusVgein : W64 := 0x0003F000

def iprioMmaxiprio : Nat := 255
def iprioDefaultUpper : Nat := 4
def iprioDefaultM : Nat := iprioDefaultUpper + 12
def iprioDefaultS : Nat := iprioDefaultM + 3

/-- The registers that interrupts are chosen and requested with. The guest runs below M-mode, and only where there is a
  hypervisor. -/
structure IrqState where
  cpu : CPURISCVState
  mie : W64
  sie : W64
  vsie : W64
  hgeie : W64
  hgeip : W64
  hvictl : W64
  vstimeIrq : Bool
  softwareSeip : Bool
  externalSeip : Bool
  miprio : Nat → BitVec 8
  siprio : Nat → BitVec 8
  hviprio : Nat → BitVec 8
  extSmaia : Bool
  extSsaia : Bool
  hard : Bool
  guest : cpu.virtEnabled → cpu.misaExt.rvh ∧ cpu.priv ≠ .machine

def defaultOrder : List Nat :=
  [47, 23, 46, 45, 22, 44, 43, 21, 42, 41, 20, 40, 11, 3, 7, 9, 1, 5, 12, 10, 2, 6,
    39, 19, 38, 37, 18, 36, 35, 17, 34, 33, 16, 32]

def riscvCpuDefaultPriority (irq : Nat) : Nat :=
  match defaultOrder.findIdx? (· = irq) with
  | some place => iprioDefaultUpper + place
  | none => iprioMmaxiprio

section
variable (iprio : Nat → BitVec 8) (extirq extirqDefPrio : Nat)

def irqPriority (irq : Nat) : Nat :=
  if iprio irq ≠ 0 then (iprio irq).toNat
  else if irq = extirq then extirqDefPrio
  else if riscvCpuDefaultPriority irq < extirqDefPrio then 1 else iprioMmaxiprio

def bestIrq : Nat → Nat → W64 → Option Nat → Nat → Option Nat
  | 0, _, _, best, _ => best
  | fuel + 1, irq, pending, best, bestPrio =>
    if pending = 0 then best
    else if pending.getLsbD 0 ∧ irqPriority iprio extirq extirqDefPrio irq ≤ bestPrio then
      bestIrq fuel (irq + 1) (pending >>> 1) (some irq) (irqPriority iprio extirq extirqDefPrio irq)
    else bestIrq fuel (irq + 1) (pending >>> 1) best bestPrio

def riscvCpuPendingToIrq (aia : Bool) (pending : W64) : Option Nat :=
  if pending = 0 then none
  else if !aia then some (ctz pending)
  else bestIrq iprio extirq extirqDefPrio 64 (ctz pending) (pending >>> ctz pending) none 0xffffffff

end

namespace IrqState
variable (s : IrqState)

def vsgein : W64 :=
  if s.hgeip &&& ((1 : W64) <<< getField s.cpu.hstatus hstatusVgein) ≠ 0 then mipVseip else 0

def vstip : W64 := if s.vstimeIrq then mipVstip else 0
def riscvCpuAllPending : W64 := (s.cpu.mip ||| s.vsgein ||| s.vstip) &&& s.mie
def gate (enabled : Bool) : W64 := if enabled then BitVec.allOnes 64 else 0

def mieEnabled : Bool :=
  s.cpu.virtEnabled || s.cpu.priv ≠ .machine || getField s.cpu.mstatus mstatusMie != 0

def sieEnabled : Bool :=
  s.cpu.priv = .user || s.cpu.priv = .supervisor && getField s.cpu.mstatus mstatusSie != 0

def hsieEnabled : Bool := s.cpu.virtEnabled || s.sieEnabled
def vsieEnabled : Bool := s.cpu.virtEnabled && s.sieEnabled
def irqsF : W64 := s.cpu.mvip &&& (s.cpu.mvien &&& ~~~s.cpu.mideleg) &&& s.sie
def irqsFVs : W64 := s.cpu.hvip &&& s.cpu.hvien &&& ~~~s.cpu.hideleg &&& s.vsie
def vsPosition (irqs : W64) : W64 := (irqs &&& ~~~vsModeInterrupts) ||| ((irqs &&& vsModeInterrupts) >>> 1)
def mIrqs : W64 := s.riscvCpuAllPending &&& ~~~s.cpu.mideleg &&& gate s.mieEnabled
def hsIrqs : W64 := ((s.riscvCpuAllPending &&& s.cpu.mideleg &&& ~~~s.cpu.hideleg) ||| s.irqsF) &&& gate s.hsieEnabled

def vsIrqs : W64 :=
  (vsPosition (s.riscvCpuAllPending &&& s.cpu.mideleg &&& s.cpu.hideleg) ||| s.irqsFVs) &&& gate s.vsieEnabled

def raisedNumber (virq : Nat) : Nat := if virq = 0 ∨ 12 < virq then virq else virq + 1

/-- `riscv_cpu_local_irq_pending`, with the test that chose the interrupt; a resumable NMI is chosen by none. -/
def chosen : Option (Option Level × Nat) :=
  if s.cpu.cfg.extSmrnmi ∧ getField s.cpu.mnstatus mnstatusNmie = 0 then none
  else if s.cpu.cfg.extSmrnmi ∧ s.cpu.rnmip ≠ 0 then some (none, ctz s.cpu.rnmip)
  else if s.mIrqs ≠ 0 then
    (riscvCpuPendingToIrq s.miprio irqMExt iprioDefaultM s.extSmaia s.mIrqs).map ((some .machine, ·))
  else if s.hsIrqs ≠ 0 then
    (riscvCpuPendingToIrq s.siprio irqSExt iprioDefaultS s.extSsaia s.hsIrqs).map ((some .hypervisor, ·))
  else if s.vsIrqs ≠ 0 then
    (riscvCpuPendingToIrq s.hviprio irqSExt iprioDefaultS s.extSsaia s.vsIrqs).map
      fun virq => (some .guest, raisedNumber virq)
  else none

def riscvCpuLocalIrqPending : Option Nat := s.chosen.map Prod.snd

end IrqState

section
variable {i : Nat → BitVec 8} {e ex : Nat}

theorem bestIrq_some {fu irq : Nat} {p : W64} {be : Option Nat} {b f : Nat}
    (hc : bestIrq i e ex fu irq p be b = some f) : be = some f ∨ irq ≤ f ∧ p.getLsbD (f - irq) := by
  induction fu generalizing irq p be b with
  | zero => exact .inl hc
  | succ fu ih =>
    unfold bestIrq at hc
    have hl : ∀ {be : Option Nat} {b : Nat}, bestIrq i e ex fu (irq + 1) (p >>> 1) be b = some f →
        be = some f ∨ irq ≤ f ∧ p.getLsbD (f - irq) := by
      intro be b hr
      rcases ih hr with hs | ⟨ha, hb⟩
      · exact .inl hs
      · right
        rw [BitVec.getLsbD_ushiftRight, show 1 + (f - (irq + 1)) = f - irq by omega] at hb
        exact ⟨by omega, hb⟩
    split at hc
    · exact .inl hc
    split at hc
    case isTrue ht =>
      rcases hl hc with hs | later
      · cases hs
        right
        exact ⟨Nat.le_refl _, by rw [Nat.sub_self]; exact ht.1⟩
      · exact .inr later
    case isFalse => exact hl hc

theorem pendingToIrq_some {aia : Bool} {p : W64} {f : Nat} (hc : riscvCpuPendingToIrq i e ex aia p = some f) :
    p.getLsbD f := by
  unfold riscvCpuPendingToIrq at hc
  split at hc
  · cases hc
  case isFalse hn =>
    split at hc
    · cases hc
      exact getLsbD_ctz hn
    · rcases bestIrq_some hc with hs | ⟨ha, hb⟩
      · cases hs
      · rwa [BitVec.getLsbD_ushiftRight, Nat.add_sub_cancel' ha] at hb

end

inductive IrqCsr where
  | mip
  | mie
  | mideleg
  | mvip
  | mvien
  | sip
  | sie
  | hvip
  | hvien
  | hideleg
  | vsip
  | vsie
deriving DecidableEq, Repr

def localInterrupts : W64 := ~~~(0x1FFF : W64)
def delegableInts : W64 := sModeInterrupts ||| vsModeInterrupts ||| mipLcofip
def vsDelegableInts : W64 := (vsModeInterrupts ||| localInterrupts) &&& ~~~mipLcofip
def allInts : W64 := mModeInterrupts ||| sModeInterrupts ||| hsModeInterrupts ||| localInterrupts
def mvipWritableMask : W64 := mipSsip ||| mipStip ||| mipSeip ||| localInterrupts
def mvienWritableMask : W64 := mipSsip ||| mipSeip ||| localInterrupts
def sipWritableMask : W64 := mipSsip ||| localInterrupts
def hvipWritableMask : W64 := mipVssip ||| mipVstip ||| mipVseip ||| localInterrupts
def hvienWritableMask : W64 := localInterrupts
def vsipWritableMask : W64 := mipVssip ||| localInterrupts
def hvictlVti : W64 := 0x40000000
def irqLocalMax : Nat := 64
def boolToMask (level : Bool) : W64 := if level then BitVec.allOnes 64 else 0

def fromGuestPosition (bits : W64) : W64 :=
  (bits &&& ~~~(vsModeInterrupts >>> 1)) ||| ((bits &&& (vsModeInterrupts >>> 1)) <<< 1)

namespace IrqState
variable (s : IrqState)

def requests : W64 :=
  s.cpu.mip ||| (if s.cpu.virtEnabled then s.vsgein else 0) ||| s.vstip |||
    (if s.cpu.virtEnabled then s.cpu.hvien &&& s.cpu.hvip &&& s.vsie else s.cpu.mvien &&& s.cpu.mvip &&& s.sie)

def riscvCpuInterrupt : IrqState := { s with hard := s.requests != 0 }

def riscvCpuUpdateMip (mask value : W64) : W64 × IrqState :=
  -- VSTIP is not kept in mip while the guest's timer is pending
  let mask := if mask = mipVstip ∧ s.vstimeIrq then 0 else mask
  (s.cpu.mip, riscvCpuInterrupt { s with cpu := { s.cpu with mip := merge s.cpu.mip mask value } })

def mipMask (wrMask : W64) : W64 :=
  let mask := wrMask &&& delegableInts
  if s.cpu.cfg.extSstc ∧ s.cpu.priv = .machine ∧ getField s.cpu.envcfg.menvcfg menvcfgStce ≠ 0 then
    let mask := mask &&& ~~~mipStip
    if getField s.cpu.envcfg.henvcfg menvcfgStce ≠ 0 then mask &&& ~~~mipVstip else mask
  else mask

variable (newVal wrMask : W64)

def noteSeip : W64 × IrqState :=
  if wrMask &&& delegableInts &&& mipSeip ≠ 0 then
    (newVal ||| (if s.externalSeip then mipSeip else 0), { s with softwareSeip := newVal &&& mipSeip != 0 })
  else (newVal, s)

variable (csrno : IrqCsr)

def rmwMip64 (newVal wrMask : W64) : W64 × IrqState :=
  let noted := s.noteSeip newVal wrMask
  let mask := s.mipMask wrMask
  let updated := if mask ≠ 0 then noted.2.riscvCpuUpdateMip mask (noted.1 &&& mask) else (s.cpu.mip, noted.2)
  (if csrno ≠ .hvip then updated.1 ||| s.vsgein ||| s.vstip else updated.1, updated.2)

def rmwMie64 : W64 × IrqState :=
  let mie := merge s.mie (wrMask &&& allInts) newVal
  (s.mie, { s with mie := if s.cpu.misaExt.rvh then mie else mie &&& ~~~hsModeInterrupts })

def rmwMideleg64 : W64 × IrqState :=
  let mideleg := merge s.cpu.mideleg (wrMask &&& delegableInts) newVal
  (s.cpu.mideleg,
    { s with cpu := { s.cpu with mideleg := if s.cpu.misaExt.rvh then mideleg ||| hsModeInterrupts else mideleg } })

def rmwMvien64 : W64 × IrqState :=
  (s.cpu.mvien, { s with cpu := { s.cpu with mvien := merge s.cpu.mvien (wrMask &&& mvienWritableMask) newVal } })

def mvipAlias : W64 :=
  let aliasMask := ((sModeInterrupts ||| localInterrupts) &&& (s.cpu.mideleg ||| ~~~s.cpu.mvien)) ||| mipStip
  let aliasMask := if csrno = .sip then aliasMask &&& (s.cpu.mideleg ||| s.cpu.mvien) else aliasMask
  if s.cpu.cfg.extSstc ∧ s.cpu.priv = .machine ∧ getField s.cpu.envcfg.menvcfg menvcfgStce ≠ 0 then
    aliasMask &&& ~~~mipStip
  else aliasMask

def mvipNalias : W64 :=
  let naliasMask := (sModeInterrupts ||| localInterrupts) &&& (~~~s.cpu.mideleg &&& s.cpu.mvien)
  if csrno = .sip then naliasMask &&& (s.cpu.mideleg ||| s.cpu.mvien) else naliasMask

def rmwMvip64 (newVal wrMask : W64) : W64 × IrqState :=
  let wrMaskMip := wrMask &&& s.mvipAlias csrno &&& mvipWritableMask
  let wrMaskMvip := wrMask &&& s.mvipNalias csrno &&& mvipWritableMask
  let aliased := s.rmwMip64 .mip newVal wrMaskMip
  let written :=
    if wrMaskMvip ≠ 0 then
      riscvCpuInterrupt
        { aliased.2 with cpu := { aliased.2.cpu with mvip := merge aliased.2.cpu.mvip wrMaskMvip newVal } }
    else aliased.2
  ((aliased.2.cpu.mvip &&& s.mvipNalias csrno) ||| (aliased.1 &&& s.mvipAlias csrno), written)

def rmwHvien64 : W64 × IrqState :=
  (s.cpu.hvien, { s with cpu := { s.cpu with hvien := merge s.cpu.hvien (wrMask &&& hvienWritableMask) newVal } })

def rmwHideleg64 : W64 × IrqState :=
  (s.cpu.hideleg &&& vsDelegableInts,
    { s with cpu := { s.cpu with hideleg := merge s.cpu.hideleg (wrMask &&& vsDelegableInts) newVal } })

def hvipAlias : W64 :=
  let aliasMask := (s.cpu.hideleg ||| ~~~s.cpu.hvien) ||| vsModeInterrupts
  if csrno = .vsip then aliasMask &&& (s.cpu.hideleg ||| ~~~vsModeInterrupts) &&& (s.cpu.hideleg ||| s.cpu.hvien)
  else aliasMask

def hvipNalias : W64 :=
  let naliasMask := ~~~s.cpu.hideleg &&& s.cpu.hvien
  if csrno = .vsip then naliasMask &&& (s.cpu.hideleg ||| s.cpu.hvien) else naliasMask

def rmwHvip64 (newVal wrMask : W64) : W64 × IrqState :=
  let wrMaskHvip := wrMask &&& s.hvipNalias csrno &&& hvipWritableMask
  let wrMaskMip := wrMask &&& s.hvipAlias csrno &&& hvipWritableMask
  let aliased := s.rmwMip64 csrno newVal wrMaskMip
  let written :=
    if wrMaskHvip ≠ 0 then
      riscvCpuInterrupt
        { aliased.2 with cpu := { aliased.2.cpu with hvip := merge aliased.2.cpu.hvip wrMaskHvip newVal } }
    else aliased.2
  ((aliased.1 &&& s.hvipAlias csrno) ||| (aliased.2.cpu.hvip &&& s.hvipNalias csrno), written)

def rmwVsie64 : W64 × IrqState :=
  let aliasMask := (localInterrupts ||| vsModeInterrupts) &&& s.cpu.hideleg
  let naliasMask := localInterrupts &&& (~~~s.cpu.hideleg &&& s.cpu.hvien)
  let newVal := fromGuestPosition newVal
  let wrMask := fromGuestPosition wrMask
  let aliased := s.rmwMie64 newVal (wrMask &&& aliasMask)
  (vsPosition (aliased.1 &&& aliasMask) ||| (s.vsie &&& naliasMask),
    { aliased.2 with vsie := merge s.vsie (wrMask &&& naliasMask) newVal })

def rmwSie64 : Option (W64 × IrqState) :=
  let naliasMask := (sModeInterrupts ||| localInterrupts) &&& (~~~s.cpu.mideleg &&& s.cpu.mvien)
  let aliasMask := (sModeInterrupts ||| localInterrupts) &&& s.cpu.mideleg
  if s.cpu.virtEnabled then
    if s.hvictl &&& hvictlVti ≠ 0 then none
    else
      let guest := s.rmwVsie64 newVal wrMask
      some (guest.1 &&& aliasMask, guest.2)
  else
    let aliased := s.rmwMie64 newVal (wrMask &&& aliasMask)
    some ((aliased.1 &&& aliasMask) ||| (s.sie &&& naliasMask),
      { aliased.2 with sie := merge s.sie (wrMask &&& naliasMask) newVal })

def rmwVsip64 : W64 × IrqState :=
  let mask := (s.cpu.hideleg &&& vsModeInterrupts) ||| (s.cpu.hvien &&& ~~~s.cpu.hideleg)
  let aliased := s.rmwHvip64 .vsip (fromGuestPosition newVal) (fromGuestPosition wrMask &&& mask &&& vsipWritableMask)
  (vsPosition (aliased.1 &&& mask), aliased.2)

def rmwSip64 : Option (W64 × IrqState) :=
  let seen := (s.cpu.mideleg ||| s.cpu.mvien) &&& (sModeInterrupts ||| localInterrupts)
  if s.cpu.virtEnabled then
    if s.hvictl &&& hvictlVti ≠ 0 then none
    else
      let guest := s.rmwVsip64 newVal wrMask
      some (guest.1 &&& seen, guest.2)
  else
    let host := s.rmwMvip64 .sip newVal (wrMask &&& ((s.cpu.mideleg ||| s.cpu.mvien) &&& sipWritableMask))
    some (host.1 &&& seen, host.2)

def rmwCsr (newVal wrMask : W64) : Option (W64 × IrqState) :=
  match csrno with
  | .mip => some (s.rmwMip64 .mip newVal wrMask)
  | .mie => some (s.rmwMie64 newVal wrMask)
  | .mideleg => some (s.rmwMideleg64 newVal wrMask)
  | .mvip => some (s.rmwMvip64 .mvip newVal wrMask)
  | .mvien => some (s.rmwMvien64 newVal wrMask)
  | .sip => s.rmwSip64 newVal wrMask
  | .sie => s.rmwSie64 newVal wrMask
  | .hvip => some (s.rmwHvip64 .hvip newVal wrMask)
  | .hvien => some (s.rmwHvien64 newVal wrMask)
  | .hideleg => some (s.rmwHideleg64 newVal wrMask)
  | .vsip => some (s.rmwVsip64 newVal wrMask)
  | .vsie => some (s.rmwVsie64 newVal wrMask)

def guestLine (irq : Nat) : Nat := irq - irqLocalMax + 1

def riscvCpuSetIrq (irq : Nat) (level : Bool) : IrqState :=
  if irq < irqLocalMax then
    if irq = irqSExt then
      (riscvCpuUpdateMip { s with externalSeip := level } ((1 : W64) <<< irq) (boolToMask (level || s.softwareSeip))).2
    else (s.riscvCpuUpdateMip ((1 : W64) <<< irq) (boolToMask level)).2
  else
    let line := (1 : W64) <<< guestLine irq
    let hgeip := if level then s.hgeip &&& ~~~line ||| line else s.hgeip &&& ~~~line
    (riscvCpuUpdateMip { s with hgeip := hgeip } mipSgeip (boolToMask (s.hgeie &&& hgeip != 0))).2

def vstimer (expired : Bool) : IrqState :=
  (riscvCpuUpdateMip { s with vstimeIrq := expired } 0 (boolToMask expired)).2

theorem guest_setMode {n : Priv} {v : Bool} (hb : v → n ≠ .machine) (hv : (riscvCpuSetMode s.cpu n v).virtEnabled) :
    (riscvCpuSetMode s.cpu n v).misaExt.rvh ∧ (riscvCpuSetMode s.cpu n v).priv ≠ .machine := by
  unfold riscvCpuSetMode at hv ⊢
  cases hp : s.cpu.misaExt.rvh with
  | true =>
    rw [hp] at hv
    exact ⟨rfl, hb hv⟩
  | false =>
    rw [hp] at hv
    exact absurd (s.guest hv).1 (by simp [hp])

def setMode (newpriv : Priv) (virtEn : Bool) (below : virtEn → newpriv ≠ .machine) : IrqState :=
  let moved : IrqState := { s with cpu := riscvCpuSetMode s.cpu newpriv virtEn, guest := s.guest_setMode below }
  if s.cpu.misaExt.rvh && virtEn then (moved.riscvCpuUpdateMip 0 0).2 else moved

end IrqState

inductive IrqEvent where
  | csr (csrno : IrqCsr) (newVal wrMask : W64)
  | updateMip (mask value : W64)
  | setIrq (irq : Nat) (level : Bool)
  | vstimer (expired : Bool)
  | setMode (newpriv : Priv) (virtEn : Bool) (below : virtEn → newpriv ≠ .machine)

def irqStep (s : IrqState) : IrqEvent → IrqState
  | .csr csrno newVal wrMask => ((s.rmwCsr csrno newVal wrMask).map Prod.snd).getD s
  | .updateMip mask value => (s.riscvCpuUpdateMip mask value).2
  | .setIrq irq level => s.riscvCpuSetIrq irq level
  | .vstimer expired => s.vstimer expired
  | .setMode newpriv virtEn below => s.setMode newpriv virtEn below

def Leads (pending : W64) (prio : Nat → Nat) (ahead : Nat → Nat → Prop) (i : Nat) : Prop :=
  pending.getLsbD i ∧ ∀ j < 64, pending.getLsbD j → prio i < prio j ∨ prio i = prio j ∧ ahead i j

instance (pending : W64) (prio : Nat → Nat) (ahead : Nat → Nat → Prop) [DecidableRel ahead] (i : Nat) :
    Decidable (Leads pending prio ahead i) := inferInstanceAs (Decidable (_ ∧ ∀ j < 64, _))

def Level.extirq : Level → Nat
  | .machine => irqMExt
  | _ => irqSExt

def Level.extirqDefPrio : Level → Nat
  | .machine => iprioDefaultM
  | _ => iprioDefaultS

/-- The order of the privileged specification, without the AIA. -/
def specificationOrder : List Nat := [11, 3, 7, 9, 1, 5, 12, 10, 2, 6]

variable (level : Level) (aia : Bool) (iprio : Nat → BitVec 8)

def effectivePriority (irq : Nat) : Nat :=
  if aia then irqPriority iprio level.extirq level.extirqDefPrio irq else 0

def orderRank (irq : Nat) : Nat := if aia then riscvCpuDefaultPriority irq else specificationOrder.idxOf irq

/-- Of equal priorities the loop of the AIA keeps the last, and without the AIA the first bit is taken. -/
def scanAhead (i j : Nat) : Prop := if aia then j ≤ i else i ≤ j
instance : DecidableRel (scanAhead aia) := fun i j => inferInstanceAs (Decidable (if aia then j ≤ i else i ≤ j))

section
variable {w : W64} {p : Nat → Nat} {n bp : Nat} {best : Option Nat}

structure Led (w : W64) (p : Nat → Nat) (n : Nat) (best : Option Nat) (bp : Nat) : Prop where
  passed : ∀ j < n, w.getLsbD j → ∃ b, best = some b ∧ (p b < p j ∨ p b = p j ∧ j ≤ b)
  known : ∀ b, best = some b → bp = p b
  start : best = none → ∀ j, p j ≤ bp

theorem Led.take (hl : Led w p n best bp) (hp : p n ≤ bp) : Led w p (n + 1) (some n) (p n) := by
  constructor
  · intro j hj hw
    refine ⟨n, rfl, ?_⟩
    by_cases h : j = n
    · rw [h]
      exact .inr ⟨rfl, Nat.le_refl n⟩
    · obtain ⟨b, hb, ha⟩ := hl.passed j (by omega) hw
      have he := hl.known b hb
      omega
  · intro b hb
    cases hb
    rfl
  · intro hb
    cases hb

theorem Led.skip (hl : Led w p n best bp) (hn : ¬(w.getLsbD n ∧ p n ≤ bp)) : Led w p (n + 1) best bp := by
  refine ⟨?_, hl.known, hl.start⟩
  intro j hj hw
  by_cases h : j = n
  · subst h
    cases hb : best with
    | none => exact absurd ⟨hw, hl.start hb j⟩ hn
    | some b =>
      have he := hl.known b hb
      have less : ¬p j ≤ bp := fun le => hn ⟨hw, le⟩
      exact ⟨b, rfl, .inl (by omega)⟩
  · exact hl.passed j (by omega) hw

variable {iprio : Nat → BitVec 8} {e d fuel : Nat}

theorem bestIrq_least (hl : Led w (irqPriority iprio e d) n best bp) (hf : 64 ≤ n + fuel) {j : Nat} (hj : w.getLsbD j) :
    ∃ b, bestIrq iprio e d fuel n (w >>> n) best bp = some b ∧
      (irqPriority iprio e d b < irqPriority iprio e d j ∨ irqPriority iprio e d b = irqPriority iprio e d j ∧ j ≤ b) := by
  have hb := BitVec.lt_of_getLsbD hj
  induction fuel generalizing n best bp with
  | zero => exact hl.passed j (by omega) hj
  | succ fuel ih =>
    unfold bestIrq
    split
    · rename_i hz
      refine hl.passed j (Nat.lt_of_not_le fun le => ?_) hj
      have hs := congrArg (BitVec.getLsbD · (j - n)) hz
      simp [Nat.add_sub_cancel' le, hj] at hs
    · split
      · rename_i ht
        exact ih (hl.take ht.2) (by omega)
      · rename_i hn
        exact ih (hl.skip hn) (by omega)

theorem irqPriority_le (hd : d ≤ 255) (irq : Nat) : irqPriority iprio e d irq ≤ 255 := by
  unfold irqPriority iprioMmaxiprio
  split
  · omega
  · split
    · exact hd
    · split <;> omega

theorem not_below_ctz (hn : w ≠ 0) {j : Nat} (hj : w.getLsbD j) : ctz w ≤ j := by
  apply Nat.le_of_not_lt
  intro less
  have hc := congrArg (Nat.testBit · j) (ctz_clear hn)
  simp only [Nat.testBit_mod_two_pow, less, BitVec.testBit_toNat, hj, Nat.zero_testBit] at hc
  cases hc

end

variable {pending : W64}

theorem pendingToIrq_leads (hn : pending ≠ 0) :
    ∃ irq, riscvCpuPendingToIrq iprio level.extirq level.extirqDefPrio aia pending = some irq ∧
      Leads pending (effectivePriority level aia iprio) (scanAhead aia) irq := by
  cases aia with
  | false =>
    refine ⟨ctz pending, ?_, getLsbD_ctz hn, fun j _ hj => .inr ⟨rfl, not_below_ctz hn hj⟩⟩
    rw [riscvCpuPendingToIrq, if_neg hn]
    rfl
  | true =>
    have hd : level.extirqDefPrio ≤ 255 := by cases level <;> decide
    have hl : Led pending (irqPriority iprio level.extirq level.extirqDefPrio) (ctz pending) none 0xffffffff := by
      refine ⟨fun j less hj => absurd (not_below_ctz hn hj) (by omega), fun b hb => (by cases hb), fun _ j => ?_⟩
      exact Nat.le_trans (irqPriority_le hd j) (by decide)
    have hr : riscvCpuPendingToIrq iprio level.extirq level.extirqDefPrio true pending =
        bestIrq iprio level.extirq level.extirqDefPrio 64 (ctz pending) (pending >>> ctz pending) none 0xffffffff := by
      rw [riscvCpuPendingToIrq, if_neg hn]
      rfl
    obtain ⟨irq, hb, -⟩ := bestIrq_least hl (Nat.le_add_left _ _) (getLsbD_ctz hn)
    have hs := hr.trans hb
    refine ⟨irq, hs, pendingToIrq_some hs, fun j _ hj => ?_⟩
    obtain ⟨b, hb', ha⟩ := bestIrq_least hl (Nat.le_add_left _ _) hj
    cases hb.symm.trans hb'
    exact ha

variable {aia}

theorem Leads.unique {p : Nat → Nat} {i j : Nat} (hi : Leads pending p (scanAhead aia) i)
    (hj : Leads pending p (scanAhead aia) j) : i = j := by
  have h1 := hi.2 j (BitVec.lt_of_getLsbD hj.1) hj.1
  have h2 := hj.2 i (BitVec.lt_of_getLsbD hi.1) hi.1
  cases aia <;> simp only [scanAhead, if_true, Bool.false_eq_true, if_false] at h1 h2 <;> omega

/-- The interrupt that the code takes is the first of the architecture's order exactly where, among the pending
  interrupts of the least priority number, the one that the scan keeps is the first of that order. -/
theorem pending_order_iff (level : Level) (aia : Bool) (iprio : Nat → BitVec 8) (pending : W64) (nonzero : pending ≠ 0) :
    (∃ irq, riscvCpuPendingToIrq iprio level.extirq level.extirqDefPrio aia pending = some irq ∧
      Leads pending (effectivePriority level aia iprio) (fun i j => orderRank aia i ≤ orderRank aia j) irq) ↔
      ∀ irq < 64, Leads pending (effectivePriority level aia iprio) (scanAhead aia) irq → ∀ j < 64, pending.getLsbD j →
        effectivePriority level aia iprio irq = effectivePriority level aia iprio j → orderRank aia irq ≤ orderRank aia j := by
  obtain ⟨irq, chosen, leads⟩ := pendingToIrq_leads level aia iprio nonzero
  constructor
  · rintro ⟨irq', chosen', ordered⟩ i inside leads' j bound waits even
    cases chosen.symm.trans chosen'
    cases leads.unique leads'
    rcases ordered.2 j bound waits with lower | equal
    · omega
    · exact equal.2
  · intro sorted
    refine ⟨irq, chosen, leads.1, fun j bound waits => ?_⟩
    rcases leads.2 j bound waits with lower | ⟨even, -⟩
    · exact .inl lower
    · exact .inr ⟨even, sorted irq (BitVec.lt_of_getLsbD leads.1) leads j bound waits even⟩

theorem software_before_timer : ∃ irq, riscvCpuPendingToIrq (fun _ => 0) irqMExt iprioDefaultM false 0x88 = some irq ∧
    Leads 0x88 (effectivePriority .machine false fun _ => 0) (fun i j => orderRank false i ≤ orderRank false j) irq :=
  (pending_order_iff .machine false (fun _ => 0) 0x88 (by decide)).mpr (by decide +kernel)

/-- Without the AIA the supervisor's software interrupt goes before an external one of the machine; with it and no
  priorities set, the timer before the software interrupt. -/
theorem pending_order_inverted :
    riscvCpuPendingToIrq (fun _ => 0) irqMExt iprioDefaultM false 0x802 = some 1 ∧ orderRank false 11 < orderRank false 1 ∧
    riscvCpuPendingToIrq (fun _ => 0) irqMExt iprioDefaultM true 0x88 = some 7 ∧
    effectivePriority .machine true (fun _ => 0) 3 = effectivePriority .machine true (fun _ => 0) 7 ∧
    orderRank true 3 < orderRank true 7 := by
  decide +kernel

end RiscvEmulators.Qemu.Cpu
