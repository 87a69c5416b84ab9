import Riscv.Store.Cells
import Riscv.Transition.Run

namespace RiscvEmulators.Rvvm
open Store Transition Cells Option

structure EthocBd where
  data : W32
  ptr : W32
deriving DecidableEq, Repr

structure Ethoc where
  bdbuf : Cells 128 EthocBd
  curTxbd : Nat
  curRxbd : Nat
  moder : W32
  intSrc : W32
  intMask : W32
  packetlen : W32
  txBdNum : Nat
  irqs : Nat

namespace Ethoc

def bdCount : Nat := 0x80

def regModer : Nat := 0x00
def regIntSrc : Nat := 0x04
def regIntMask : Nat := 0x08
def regPacketlen : Nat := 0x18
def regTxBdNum : Nat := 0x20
def bdAddr : Nat := 0x400
def bdBufsiz : Nat := 0x400

def moderPad : W32 := 0x8000
def moderCrcen : W32 := 0x2000
def moderTxen : W32 := 0x2
def moderRxen : W32 := 0x1

def intRxe : Nat := 3
def intRxb : Nat := 2
def intTxe : Nat := 1
def intTxb : Nat := 0

def bdIrq : W32 := 0x4000
def bdWrap : W32 := 0x2000
def txbdRd : W32 := 0x8000
def txbdRl : W32 := 0x8
def txbdCs : W32 := 0x1
def rxbdE : W32 := 0x8000
def rxbdOr : W32 := 0x40

variable (eth : Ethoc)

def interrupt (intNum : Nat) : Ethoc :=
  let mask := (1 : W32) <<< intNum
  { eth with
    intSrc := eth.intSrc ||| mask
    irqs := if eth.intSrc &&& mask = 0 ∧ mask &&& eth.intMask ≠ 0 then eth.irqs + 1 else eth.irqs }

inductive TxOutcome where
  | sent
  | sendError
  | dmaError
deriving DecidableEq, Repr

def transmitted (data : W32) : TxOutcome → W32
  | .sent => data &&& ~~~txbdRd
  | .sendError => (data &&& ~~~txbdRd) ||| txbdRl
  | .dmaError => (data &&& ~~~txbdRd) ||| txbdCs

def signalTx (data : W32) : TxOutcome → Ethoc
  | .sent => if data &&& bdIrq ≠ 0 then eth.interrupt intTxb else eth
  | .sendError => eth.interrupt intTxe
  | .dmaError => eth.interrupt intTxe

def nextTxbd (data : W32) : Nat :=
  if data &&& bdWrap ≠ 0 ∨ eth.curTxbd = eth.txBdNum then 0 else eth.curTxbd + 1

/-- All operations return `none` on an access outside of the descriptors. -/
def txRound (bd : EthocBd) (outcome : TxOutcome) : Option Ethoc := do
  let data := transmitted bd.data outcome
  let bdbuf ← eth.bdbuf.modify eth.curTxbd fun bd => { bd with data }
  let eth := { eth with bdbuf }.signalTx data outcome
  return { eth with curTxbd := eth.nextTxbd data }

def txLoop (outcome : Nat → TxOutcome) : Nat → Ethoc → Option Ethoc
  | 0, eth => some eth
  | rounds + 1, eth => do
    let txbd ← eth.bdbuf.read eth.curTxbd
    if eth.moder &&& moderTxen = 0 ∨ txbd.data &&& txbdRd = 0 then return eth
    else
      let eth ← eth.txRound txbd (outcome rounds)
      txLoop outcome rounds eth

def processTx (outcome : Nat → TxOutcome) : Option Ethoc := txLoop outcome bdCount eth

def nextRxbd (flags : W32) : Nat :=
  if flags &&& bdWrap ≠ 0 ∨ eth.curRxbd = bdCount then eth.txBdNum else eth.curRxbd + 1

def feedRx (size : Nat) (dma : Bool) : Option Ethoc :=
  if eth.moder &&& moderRxen = 0 then some eth
  else do
    let rxbd ← eth.bdbuf.read eth.curRxbd
    if rxbd.data &&& rxbdE = 0 then return eth
    else
      let flags := rxbd.data &&& ~~~rxbdE
      let fSize := size + 4
      if dma = false ∨ (eth.packetlen &&& 0xFFFF).toNat < fSize then
        let bdbuf ← eth.bdbuf.modify eth.curRxbd fun bd => { bd with data := flags ||| rxbdOr }
        return { eth with bdbuf }.interrupt intRxe
      else
        let data := (BitVec.ofNat 32 fSize &&& 0xFFFF) <<< 16 ||| (flags &&& 0xFFFF)
        let bdbuf ← eth.bdbuf.modify eth.curRxbd fun bd => { bd with data }
        let eth := { eth with bdbuf, curRxbd := eth.nextRxbd flags }
        if flags &&& bdIrq ≠ 0 then return eth.interrupt intRxb else return eth

def allowedModer (val : W32) : W32 :=
  let val := if eth.txBdNum = 0 then val &&& ~~~moderTxen else val
  if bdCount ≤ eth.txBdNum then val &&& ~~~moderRxen else val

def writeModer (val : W32) (outcome : Nat → TxOutcome) : Option Ethoc :=
  let val := eth.allowedModer val
  let toggled := eth.moder ^^^ val
  let eth := { eth with moder := val }
  let eth := if toggled &&& moderRxen ≠ 0 then { eth with curRxbd := eth.txBdNum } else eth
  if toggled &&& moderTxen ≠ 0 then { eth with curTxbd := 0 }.processTx outcome else some eth

/-- A descriptor has its address in the word with bit 2 set. -/
def storeBd (offset : Nat) (val : W32) (bd : EthocBd) : EthocBd :=
  if offset / 4 % 2 = 1 then { bd with ptr := val } else { bd with data := val }

def writeBd (offset : Nat) (val : W32) (outcome : Nat → TxOutcome) : Option Ethoc := do
  let bdid := (offset - bdAddr) / 8
  let bdbuf ← eth.bdbuf.modify bdid (storeBd offset val)
  let eth := { eth with bdbuf }
  if bdid < eth.txBdNum then eth.processTx outcome else return eth

def mmioWrite (offset : Nat) (val : W32) (outcome : Nat → TxOutcome) : Option Ethoc :=
  if offset = regModer then eth.writeModer val outcome
  else if offset = regIntSrc then some { eth with intSrc := eth.intSrc &&& ~~~val }
  else if offset = regIntMask then
    some { eth with intMask := val, irqs := if eth.intSrc &&& val ≠ 0 then eth.irqs + 1 else eth.irqs }
  else if offset = regPacketlen then some { eth with packetlen := val }
  else if offset = regTxBdNum then some { eth with txBdNum := min val.toNat bdCount }
  else if bdAddr ≤ offset ∧ offset < bdAddr + bdBufsiz then eth.writeBd offset val outcome
  else some eth

def reset : Ethoc :=
  { eth with
    bdbuf := fun _ => ⟨0, 0⟩
    moder := moderPad ||| moderCrcen
    intSrc := 0
    intMask := 0
    packetlen := 0x3C0600
    txBdNum := 0x40 }

def init : Ethoc where
  bdbuf := fun _ => ⟨0, 0⟩
  curTxbd := 0
  curRxbd := 0
  moder := 0
  intSrc := 0
  intMask := 0
  packetlen := 0
  txBdNum := 0
  irqs := 0

inductive Event where
  | write (offset : Nat) (val : W32) (outcome : Nat → TxOutcome)
  | receive (size : Nat) (dma : Bool)
  | reset

def step : Event → Option Ethoc
  | .write offset val outcome => eth.mmioWrite offset val outcome
  | .receive size dma => eth.feedRx size dma
  | .reset => some eth.reset

structure InBounds (eth : Ethoc) : Prop where
  tx : eth.curTxbd < bdCount
  rx : eth.moder &&& moderRxen ≠ 0 → eth.curRxbd < bdCount

section
variable {eth : Ethoc}

def Passes (eth : Ethoc) (i : Fin 128) : Prop :=
  (eth.bdbuf i).data &&& txbdRd ≠ 0 ∧ (eth.bdbuf i).data &&& bdWrap = 0 ∧ i.val ≠ eth.txBdNum

def Overruns (eth : Ethoc) : Prop := eth.moder &&& moderTxen ≠ 0 ∧ ∀ i : Fin 128, eth.curTxbd ≤ i.val → eth.Passes i

variable (data : W32) (o : TxOutcome) {after : Ethoc}

theorem transmitted_eq :
    ∃ e, transmitted data o = (data &&& ~~~txbdRd) ||| e ∧ e &&& txbdRd = 0 ∧ e &&& bdWrap = 0 := by
  cases o with
  | sent => exact ⟨0, by simp [transmitted], by decide, by decide⟩
  | sendError => exact ⟨txbdRl, rfl, by decide, by decide⟩
  | dmaError => exact ⟨txbdCs, rfl, by decide, by decide⟩

theorem transmitted_wrap : transmitted data o &&& bdWrap = data &&& bdWrap := by
  obtain ⟨e, hr, -, hc⟩ := transmitted_eq data o
  have hk : ~~~txbdRd &&& bdWrap = bdWrap := by decide
  rw [hr, BitVec.and_or_distrib_right, BitVec.and_assoc, hk, hc]
  simp

theorem transmitted_rd : transmitted data o &&& txbdRd = 0 := by
  obtain ⟨e, hr, clear, -⟩ := transmitted_eq data o
  rw [hr, BitVec.and_or_distrib_right, BitVec.and_assoc, clear]
  simp

structure SameRings (eth after : Ethoc) : Prop where
  bdbuf : after.bdbuf = eth.bdbuf
  curTxbd : after.curTxbd = eth.curTxbd
  curRxbd : after.curRxbd = eth.curRxbd
  moder : after.moder = eth.moder
  txBdNum : after.txBdNum = eth.txBdNum

theorem signalTx_rings (eth : Ethoc) (data : W32) (o : TxOutcome) : SameRings eth (eth.signalTx data o) := by
  cases o with
  | sent =>
    unfold signalTx
    dsimp only
    split <;> exact ⟨rfl, rfl, rfl, rfl, rfl⟩
  | sendError => exact ⟨rfl, rfl, rfl, rfl, rfl⟩
  | dmaError => exact ⟨rfl, rfl, rfl, rfl, rfl⟩

structure TxRound (eth : Ethoc) (i : Fin 128) (after : Ethoc) : Prop where
  moder : after.moder = eth.moder
  txBdNum : after.txBdNum = eth.txBdNum
  curRxbd : after.curRxbd = eth.curRxbd
  others : ∀ j, j ≠ i → after.bdbuf j = eth.bdbuf j
  sent : (after.bdbuf i).data &&& txbdRd = 0
  cursor : after.curTxbd = if (eth.bdbuf i).data &&& bdWrap ≠ 0 ∨ i.val = eth.txBdNum then 0 else i.val + 1

variable {i : Fin 128} {o : Nat → TxOutcome}

theorem txRound_spec (hh : eth.curTxbd = i.val) (o : TxOutcome) :
    ∃ after, eth.txRound (eth.bdbuf i) o = some after ∧ TxRound eth i after := by
  have hs := signalTx_rings { eth with bdbuf := eth.bdbuf.change i.val fun bd =>
    { bd with data := transmitted (eth.bdbuf i).data o } } (transmitted (eth.bdbuf i).data o) o
  have hm (f : EthocBd → EthocBd) : eth.bdbuf.modify eth.curTxbd f = some (eth.bdbuf.change i.val f) := by
    rw [hh, modify_val]
  rw [txRound, hm]
  refine ⟨_, rfl, hs.moder, hs.txBdNum, hs.curRxbd, fun j ho => ?_, ?_, ?_⟩
  · rw [hs.bdbuf]
    dsimp only
    exact change_other _ _ fun he => ho (Fin.ext he)
  · rw [hs.bdbuf]
    dsimp only
    rw [change_same]
    exact transmitted_rd _ _
  · rw [nextTxbd, hs.curTxbd, hs.txBdNum, transmitted_wrap]
    simp only [hh]

theorem TxRound.overruns (hr : TxRound eth i after) (hh : eth.curTxbd = i.val) (ho : after.curTxbd = i.val + 1)
    (hp : eth.Passes i) : eth.Overruns ↔ after.Overruns := by
  unfold Overruns Passes at *
  rw [hr.moder, hr.txBdNum]
  apply and_congr_right
  intro _
  constructor
  · intro ha j hb
    rw [hr.others j fun hs => by rw [hs] at hb; omega]
    exact ha j (by omega)
  · intro ha j hb
    by_cases hs : j = i
    · rw [hs]
      exact hp
    · rw [← hr.others j hs]
      exact ha j (by omega)

theorem TxRound.not_overruns (hr : TxRound eth i after) (hs : after.curTxbd = 0) : ¬ after.Overruns := by
  rintro ⟨-, ha⟩
  exact (ha i (by omega)).1 hr.sent

theorem passes_iff (h : (eth.bdbuf i).data &&& txbdRd ≠ 0) :
    eth.Passes i ↔ ¬ ((eth.bdbuf i).data &&& bdWrap ≠ 0 ∨ i.val = eth.txBdNum) := by
  rw [not_or, Decidable.not_not]
  exact and_iff_right h

structure TxKeeps (eth after : Ethoc) : Prop where
  moder : after.moder = eth.moder
  curRxbd : after.curRxbd = eth.curRxbd

theorem txLoop_safe {n : Nat} (eth : Ethoc) (hi : eth.curTxbd < bdCount) (hs : ¬ eth.Overruns) :
    ∃ after, txLoop o n eth = some after ∧ after.curTxbd < bdCount ∧ TxKeeps eth after := by
  induction n generalizing eth with
  | zero => exact ⟨eth, rfl, hi, rfl, rfl⟩
  | succ n ih =>
    obtain ⟨i, hh⟩ : ∃ i : Fin 128, eth.curTxbd = i.val := ⟨⟨eth.curTxbd, hi⟩, rfl⟩
    rw [txLoop, hh, read_val, bind_eq_bind, bind_some]
    by_cases idle : eth.moder &&& moderTxen = 0 ∨ (eth.bdbuf i).data &&& txbdRd = 0
    · rw [if_pos idle]
      exact ⟨eth, rfl, hi, rfl, rfl⟩
    · rw [if_neg idle]
      obtain ⟨nx, hd, hr⟩ := txRound_spec hh (o n)
      rw [hd, bind_eq_bind]
      have ready : (eth.bdbuf i).data &&& txbdRd ≠ 0 := fun zero => idle (.inr zero)
      have hc := hr.cursor
      -- the cursor goes back to the first descriptor, or there is a descriptor ahead that stops it
      have ho : nx.curTxbd < bdCount ∧ ¬ nx.Overruns := by
        by_cases hw : (eth.bdbuf i).data &&& bdWrap ≠ 0 ∨ i.val = eth.txBdNum
        · rw [if_pos hw] at hc
          exact ⟨by rw [hc]; decide, hr.not_overruns hc⟩
        · rw [if_neg hw] at hc
          have hp := (passes_iff ready).mpr hw
          have ha : i.val ≠ 127 := by
            intro hl
            apply hs
            refine ⟨fun off => idle (.inl off), fun j past => ?_⟩
            have same : j = i := Fin.ext (by omega)
            rw [same]
            exact hp
          refine ⟨?_, fun beyond => hs ((hr.overruns hh hc hp).mpr beyond)⟩
          rw [bdCount]
          omega
      obtain ⟨after, hr2, hb, hk⟩ := ih nx ho.1 ho.2
      exact ⟨after, hr2, hb, hk.moder.trans hr.moder, hk.curRxbd.trans hr.curRxbd⟩

theorem txLoop_overruns {n : Nat} (eth : Ethoc) (hi : eth.curTxbd < bdCount) (he : bdCount ≤ eth.curTxbd + n)
    (beyond : eth.Overruns) (hd : txLoop o n eth = some after) : bdCount ≤ after.curTxbd := by
  induction n generalizing eth with
  | zero => omega
  | succ n ih =>
    obtain ⟨i, hh⟩ : ∃ i : Fin 128, eth.curTxbd = i.val := ⟨⟨eth.curTxbd, hi⟩, rfl⟩
    have hp := beyond.2 i (by omega)
    rw [txLoop, hh, read_val, bind_eq_bind, bind_some, if_neg (not_or.mpr ⟨beyond.1, hp.1⟩)] at hd
    obtain ⟨nx, hs, hr⟩ := txRound_spec hh (o n)
    rw [hs, bind_eq_bind, bind_some] at hd
    have hc := hr.cursor
    rw [if_neg ((passes_iff hp.1).mp hp)] at hc
    by_cases hl : nx.curTxbd < bdCount
    · exact ih nx hl (by omega) ((hr.overruns hh hc hp).mp beyond) hd
    · -- one past the end: the next round has no descriptor to look at
      cases n with
      | zero =>
        cases hd
        omega
      | succ n =>
        have ho : nx.bdbuf.read nx.curTxbd = none := dif_neg hl
        rw [txLoop, ho] at hd
        cases hd

theorem processTx_inBounds (hi : eth.InBounds) :
    (∃ after, eth.processTx o = some after ∧ after.InBounds) ↔ ¬ eth.Overruns := by
  constructor
  · rintro ⟨after, hd, hb⟩ ho
    have past := txLoop_overruns eth hi.tx (by omega) ho hd
    have tx := hb.tx
    omega
  · intro hs
    obtain ⟨after, hd, hb, hk⟩ := txLoop_safe eth hi.tx hs
    refine ⟨after, hd, hb, fun on => ?_⟩
    rw [hk.curRxbd]
    rw [hk.moder] at on
    exact hi.rx on

end

section
variable {eth : Ethoc}

def Accepts (eth : Ethoc) (size : Nat) (dma : Bool) (i : Fin 128) : Prop :=
  eth.moder &&& moderRxen ≠ 0 ∧ eth.curRxbd = i.val ∧ (eth.bdbuf i).data &&& rxbdE ≠ 0 ∧ dma ∧
    size + 4 ≤ (eth.packetlen &&& 0xFFFF).toNat

/-- The receiver stays inside: the last descriptor wraps, and there are descriptors to wrap to. -/
def RxStays (eth : Ethoc) (size : Nat) (dma : Bool) : Prop :=
  ∀ i : Fin 128, eth.Accepts size dma i →
    if (eth.bdbuf i).data &&& bdWrap ≠ 0 then eth.txBdNum < bdCount else i.val ≠ 127

theorem flags_wrap (data : W32) : data &&& ~~~rxbdE &&& bdWrap = data &&& bdWrap := by
  have h : ~~~rxbdE &&& bdWrap = bdWrap := by decide
  rw [BitVec.and_assoc, h]

theorem nextRxbd_lt {i : Fin 128} (hh : eth.curRxbd = i.val) :
    eth.nextRxbd ((eth.bdbuf i).data &&& ~~~rxbdE) < bdCount ↔
      if (eth.bdbuf i).data &&& bdWrap ≠ 0 then eth.txBdNum < bdCount else i.val ≠ 127 := by
  have hi : ¬ i.val = bdCount := Nat.ne_of_lt i.isLt
  rw [nextRxbd, flags_wrap, hh]
  by_cases hw : (eth.bdbuf i).data &&& bdWrap ≠ 0
  · rw [if_pos (.inl hw), if_pos hw]
  · rw [if_neg (not_or.mpr ⟨hw, hi⟩), if_neg hw, bdCount]
    omega

theorem feedRx_inBounds {sz : Nat} {dma : Bool} (hi : eth.InBounds) :
    (∃ after, eth.feedRx sz dma = some after ∧ after.InBounds) ↔ eth.RxStays sz dma := by
  unfold feedRx
  by_cases ho : eth.moder &&& moderRxen = 0
  · rw [if_pos ho]
    exact iff_of_true ⟨eth, rfl, hi⟩ fun i ha => absurd ho ha.1
  rw [if_neg ho]
  obtain ⟨i, hh⟩ : ∃ i : Fin 128, eth.curRxbd = i.val := ⟨⟨eth.curRxbd, hi.rx ho⟩, rfl⟩
  have hu : ∀ j : Fin 128, eth.Accepts sz dma j → j = i := fun j ha => Fin.ext (ha.2.1.symm.trans hh)
  have hm (f : EthocBd → EthocBd) : eth.bdbuf.modify eth.curRxbd f = some (eth.bdbuf.change i.val f) := by
    rw [hh, modify_val]
  have read : eth.bdbuf.read eth.curRxbd = some (eth.bdbuf i) := by rw [hh, read_val]
  simp only [read, hm, bind_eq_bind, bind_some]
  by_cases hf : (eth.bdbuf i).data &&& rxbdE = 0
  · rw [if_pos hf]
    refine iff_of_true ⟨eth, rfl, hi⟩ fun j ha => ?_
    rw [hu j ha] at ha
    exact absurd hf ha.2.2.1
  rw [if_neg hf]
  by_cases hr : dma = false ∨ (eth.packetlen &&& 0xFFFF).toNat < sz + 4
  · rw [if_pos hr]
    refine iff_of_true ⟨_, rfl, hi.tx, hi.rx⟩ fun j ha => ?_
    rcases hr with hn | hl
    · exact absurd (hn.symm.trans ha.2.2.2.1) (by decide)
    · exact absurd ha.2.2.2.2 (by omega)
  rw [if_neg hr]
  obtain ⟨has', fits⟩ := not_or.mp hr
  have ha : eth.Accepts sz dma i := ⟨ho, hh, hf, by simpa using has', by omega⟩
  have hs : eth.RxStays sz dma ↔ eth.nextRxbd ((eth.bdbuf i).data &&& ~~~rxbdE) < bdCount := by
    rw [nextRxbd_lt hh]
    constructor
    · exact fun all => all i ha
    · intro one j apart
      rw [hu j apart]
      exact one
  rw [hs]
  constructor
  · rintro ⟨after, hd, hb⟩
    have on := hb.rx
    split at hd <;> cases hd <;> exact on ho
  · intro hb
    split
    · exact ⟨_, rfl, hi.tx, fun _ => hb⟩
    · exact ⟨_, rfl, hi.tx, fun _ => hb⟩

end

section
variable {eth : Ethoc}

def withModer (eth : Ethoc) (val : W32) : Ethoc :=
  let toggled := eth.moder ^^^ eth.allowedModer val
  { eth with
    moder := eth.allowedModer val
    curRxbd := if toggled &&& moderRxen ≠ 0 then eth.txBdNum else eth.curRxbd
    curTxbd := if toggled &&& moderTxen ≠ 0 then 0 else eth.curTxbd }

variable (val : W32) (o : Nat → TxOutcome)

theorem writeModer_eq : eth.writeModer val o =
    if (eth.moder ^^^ eth.allowedModer val) &&& moderTxen ≠ 0 then (eth.withModer val).processTx o
    else some (eth.withModer val) := by
  unfold writeModer withModer
  by_cases tx : (eth.moder ^^^ eth.allowedModer val) &&& moderTxen ≠ 0
  · simp only [if_pos tx]
    split <;> rfl
  · simp only [if_neg tx]
    split <;> rfl

theorem allowedModer_rx {val : W32} (on : eth.allowedModer val &&& moderRxen ≠ 0) : eth.txBdNum < bdCount := by
  unfold allowedModer at on
  apply Nat.lt_of_not_le
  intro h
  rw [if_pos h, BitVec.and_assoc] at on
  simp at on

theorem withModer_inBounds (hi : eth.InBounds) : (eth.withModer val).InBounds := by
  constructor
  · unfold withModer
    dsimp only
    split
    · decide
    · exact hi.tx
  · intro on
    unfold withModer at on ⊢
    dsimp only at on ⊢
    split
    · exact allowedModer_rx on
    · rename_i hs
      apply hi.rx
      intro ho
      apply hs
      have ha : (eth.moder ^^^ eth.allowedModer val) &&& moderRxen
          = (eth.moder &&& moderRxen) ^^^ (eth.allowedModer val &&& moderRxen) := by
        apply BitVec.eq_of_getLsbD_eq
        simp [Bool.and_xor_distrib_right]
      rw [ha, ho, BitVec.ofNat_eq_ofNat, BitVec.zero_xor]
      exact on

def Event.Careful (eth : Ethoc) : Event → Prop
  | .write offset val _ =>
    if offset = regModer then
      (eth.moder ^^^ eth.allowedModer val) &&& moderTxen ≠ 0 → ¬ (eth.withModer val).Overruns
    else if bdAddr ≤ offset ∧ offset < bdAddr + bdBufsiz then
      (offset - bdAddr) / 8 < eth.txBdNum →
        ¬ { eth with bdbuf := eth.bdbuf.change ((offset - bdAddr) / 8) (storeBd offset val) }.Overruns
    else True
  | .receive size dma => eth.RxStays size dma
  | .reset => True

theorem processTx_if {c : Prop} [Decidable c] (hi : eth.InBounds) :
    (∃ after, (if c then eth.processTx o else some eth) = some after ∧ after.InBounds) ↔ (c → ¬ eth.Overruns) := by
  by_cases hc : c
  · rw [if_pos hc, processTx_inBounds hi]
    exact ⟨fun hs _ => hs, fun hs => hs hc⟩
  · rw [if_neg hc]
    exact iff_of_true ⟨_, rfl, hi⟩ fun hs => absurd hs hc

theorem writeModer_inBounds (inside : eth.InBounds) : (∃ after, eth.writeModer val o = some after ∧ after.InBounds) ↔
    ((eth.moder ^^^ eth.allowedModer val) &&& moderTxen ≠ 0 → ¬ (eth.withModer val).Overruns) := by
  rw [writeModer_eq]
  exact processTx_if o (withModer_inBounds val inside)

theorem writeBd_inBounds {off : Nat} (bd : bdAddr ≤ off ∧ off < bdAddr + bdBufsiz) (hi : eth.InBounds) :
    (∃ after, eth.writeBd off val o = some after ∧ after.InBounds) ↔ ((off - bdAddr) / 8 < eth.txBdNum →
      ¬ { eth with bdbuf := eth.bdbuf.change ((off - bdAddr) / 8) (storeBd off val) }.Overruns) := by
  have hb : (off - bdAddr) / 8 < 128 := by
    unfold bdAddr bdBufsiz at *
    omega
  simp only [writeBd, Cells.modify, if_pos hb, bind_eq_bind, bind_some]
  exact processTx_if o ⟨hi.tx, hi.rx⟩

def KeepsInside (eth : Ethoc) (event : Event) : Prop := ∃ after, eth.step event = some after ∧ after.InBounds

theorem keepsInside_iff (eth : Ethoc) (e : Event) (hi : eth.InBounds) : eth.KeepsInside e ↔ e.Careful eth := by
  unfold KeepsInside
  cases e with
  | write offset val o =>
    simp only [step, mmioWrite, Event.Careful]
    by_cases hm : offset = regModer
    · rw [if_pos hm, if_pos hm]
      exact writeModer_inBounds val o hi
    rw [if_neg hm, if_neg hm]
    by_cases bd : bdAddr ≤ offset ∧ offset < bdAddr + bdBufsiz
    · have hf : 0x400 ≤ offset := bd.1
      rw [if_pos bd, if_pos bd, if_neg (by unfold regIntSrc; omega), if_neg (by unfold regIntMask; omega),
        if_neg (by unfold regPacketlen; omega), if_neg (by unfold regTxBdNum; omega)]
      exact writeBd_inBounds val o bd hi
    · rw [if_neg bd, if_neg bd]
      refine iff_of_true ?_ True.intro
      -- the other registers have no part in the cursors
      repeat' split
      all_goals exact ⟨_, rfl, hi.tx, hi.rx⟩
  | receive size dma => exact feedRx_inBounds hi
  | reset =>
    refine iff_of_true ⟨_, rfl, hi.tx, fun on => ?_⟩ True.intro
    exact absurd (show (moderPad ||| moderCrcen) &&& moderRxen = 0 by decide) on

end

def after (eth : Ethoc) (event : Event) : Ethoc := (eth.step event).getD eth

theorem KeepsInside.inBounds {eth : Ethoc} {e : Event} (hk : eth.KeepsInside e) : (eth.after e).InBounds := by
  obtain ⟨next, hd, hb⟩ := hk
  rw [after, hd]
  exact hb

theorem init_inBounds : init.InBounds := ⟨by decide, fun _ => by decide⟩

/-- The cursors stay inside in a run exactly when the guest never lets one of them pass the last descriptor. -/
theorem cursors_inside_iff (events : List Event) :
    StepsMeet after KeepsInside init events ↔ StepsMeet after (fun eth event => event.Careful eth) init events :=
  stepsMeet_iff_of_invariant keepsInside_iff
    (fun eth event inside careful => ((eth.keepsInside_iff event inside).mpr careful).inBounds) init_inBounds

def cursorsAfter (events : List Event) : Option (Nat × Nat) :=
  (events.foldlM step init).map fun eth => (eth.curTxbd, eth.curRxbd)

def writes (list : List (Nat × W32)) : List Event := list.map fun (offset, val) => .write offset val fun _ => .sent

theorem cursors_leave_descriptors :
    -- one receive descriptor, the last, without the wrap flag: the next packet would go to descriptor 128
    cursorsAfter (.reset :: writes [(0x20, 127), (0x7F8, 0x8000), (0x00, 1)] ++ [.receive 60 true]) = some (0, 128) ∧
    cursorsAfter (.reset :: writes [(0x20, 127), (0x7F8, 0x8000), (0x00, 1)] ++ [.receive 60 true, .receive 60 true])
      = none ∧
    -- all descriptors are given to the transmitter while the receiver runs; it wraps to descriptor 128
    cursorsAfter (.reset :: writes [(0x20, 127), (0x7F8, 0xA000), (0x00, 1), (0x20, 128)] ++ [.receive 60 true])
      = some (0, 128) ∧
    -- the number of transmit descriptors is lowered to one while the transmitter is at the third
    cursorsAfter (.reset :: writes [(0x00, 2), (0x400, 0x8000), (0x408, 0x8000), (0x20, 0)] ++
      writes ((List.range 126).map fun i => (0x410 + 8 * i, 0x8000)) ++ writes [(0x20, 1), (0x400, 0)]) = none := by
  decide +kernel

end Ethoc
end RiscvEmulators.Rvvm
