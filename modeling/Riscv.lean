import Riscv.Qemu.Iommu.Invalidation
import Riscv.Qemu.Iommu.Isolation
import Riscv.Spike.InterruptAgreement
import Riscv.Spike.Ziccid.Exclusion
import Riscv.Qemu.Mmu.Update
import Riscv.Qemu.Cpu.Nmi
import Riscv.Spike.Mmu.Conformance
import Riscv.Spike.Reservation.Exclusion
import Riscv.Rvvm.Isa.Equivalence
import Riscv.Rvvm.Mmu.Fence
import Riscv.Rvvm.Jit.Coherence
import Riscv.Rvvm.Plic.Delivery
import Riscv.Qemu.Aplic.Outputs
import Riscv.Qemu.Imsic.Race
import Riscv.Qemu.Plic.Lines
import Riscv.Rvvm.Aplic.Forwarding
import Riscv.Rvvm.Ethoc
import Riscv.Rvvm.Imsic.Agreement
import Riscv.Spike.Sstc
import Riscv.Spike.Trigger.Ownership
import Riscv.Spike.Trigger.Match
import Riscv.Spike.Vector
import Riscv.Rvvm.BitOps
import Riscv.Qemu.Cpu.IrqRequest
import Riscv.Spike.Plic.Exclusivity
import Riscv.Tlib.Pmp.Reading
import Riscv.Rvvm.Clmul
import Riscv.Qemu.Timer.Early
