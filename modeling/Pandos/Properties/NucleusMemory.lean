import Pandos.Theory.MemoryExceptions
import Pandos.Theory.Replay

/-!
# The Nucleus on Its Pointers

All runs of the nucleus, once with queues and once with the pointers of memory.
From `main` on, whatever the pointers were at boot, both ends of every exception
are the same: the same process takes over with the same state, the same support
structure is loaded with the same contents, the devices get the same commands,
and the machine waits, halts or panics at the same point. The pointers never lead
the nucleus to a null pointer or into a loop.

## Main definitions

* `nucleusInMemory`: The runs in memory.

## Theorems

* `nucleus_in_memory`: They follow the runs on queues.
-/

namespace Pandos

/-- The runs of the nucleus in memory. At boot the static data is zero, except
    for the pointers, which can be anything. -/
def nucleusInMemory (L : Layout) (b : Boot) : System Memory Event where
  init mem := ∃ m₀ : Memory, Loaded m₀.toNucleusHeap (b.bss L) ∧ m₀.sup = b.sup ∧ m₀.bus = [] ∧
    (m₀.main L b).next = some mem
  step mem e mem' := (mem.outcome L e).next = some mem'

variable {L : Layout} {b : Boot} {m : Machine} {es : List Event}

/-- A memory at boot. -/
def bootMemory (L : Layout) (b : Boot) : Memory where
  pcbs := ⟨⟨fun _ => none, fun _ => none⟩, fun p => fieldsOf ((b.bss L).pcb p)⟩
  semds := ⟨fun _ => none, fun _ => none⟩
  sKey := (b.bss L).sKey
  processCount := Counter.zero
  softblockCount := Counter.zero
  activeProcess := none
  yieldProcess := none
  recycleCount := 0
  mem := (b.bss L).mem
  startTod := 0
  sup := b.sup
  bus := []

/-- The first dispatch. -/
theorem main_in_memory (hm : (nucleus L b).init m) :
    (∃ mem, (nucleusInMemory L b).init mem) ∧
      ∀ mem, (nucleusInMemory L b).init mem → StandsFor mem m.kernel := by
  have hends : ∀ m₀ : Memory, Loaded m₀.toNucleusHeap (b.bss L) → m₀.sup = b.sup → m₀.bus = [] →
      ∃ mem, (m₀.main L b).next = some mem ∧ StandsFor mem m.kernel := by
    intro m₀ hload hsup hbus
    rcases (main_ends hload hsup hbus).next with ⟨mem, k, hmem, hk, h⟩ | ⟨_, hk⟩
    · rw [hm.1, Option.some.injEq] at hk
      exact ⟨mem, hmem, hk ▸ h⟩
    · rw [hm.1] at hk
      cases hk
  constructor
  · have hload : Loaded (bootMemory L b).toNucleusHeap (b.bss L) :=
      ⟨fun _ => rfl, fun _ => rfl, rfl⟩
    rcases hends (bootMemory L b) hload rfl rfl with ⟨mem, hmem, _⟩
    exact ⟨mem, bootMemory L b, hload, rfl, rfl, hmem⟩
  · rintro mem ⟨m₀, hload, hsup, hbus, hmem⟩
    rcases hends m₀ hload hsup hbus with ⟨mem', hmem', h⟩
    rw [hmem, Option.some.injEq] at hmem'
    exact hmem' ▸ h

/-- In every run the pointers stand for the queues of the nucleus, and the next
    exception ends in memory as it does on the queues. -/
theorem nucleus_in_memory (h : (nucleus L b).Run es m) :
    (∃ mem, (nucleusInMemory L b).Run es mem) ∧
    ∀ mem, (nucleusInMemory L b).Run es mem → StandsFor mem m.kernel ∧
      ∀ e : Event, e.Ok L m → EndsAlike (mem.outcome L e) (m.outcome L e) := by
  have hlock : (∃ mem, (nucleusInMemory L b).Run es mem) ∧
      ∀ mem, (nucleusInMemory L b).Run es mem → StandsFor mem m.kernel := by
    refine System.run_lockstep (R := fun m mem => StandsFor mem m.kernel)
      (fun m hm => main_in_memory hm) (fun es m e m' mem hrun hstands hstep => ?_) h
    rcases hstep with ⟨hok, k, hk, rfl⟩
    rcases (exceptionHandler_ends hstands (machineWf_run hrun) hok).next with
      ⟨mem', k', hmem', hk', h'⟩ | ⟨_, hk'⟩
    · rw [hk, Option.some.injEq] at hk'
      subst hk'
      refine ⟨⟨mem', hmem'⟩, fun mem₂ hmem₂ => ?_⟩
      change (mem.outcome L e).next = some mem₂ at hmem₂
      rw [hmem', Option.some.injEq] at hmem₂
      exact hmem₂ ▸ h'
    · rw [hk] at hk'
      cases hk'
  refine ⟨hlock.1, fun mem hmem => ⟨hlock.2 mem hmem, fun e hok => ?_⟩⟩
  exact exceptionHandler_ends (hlock.2 mem hmem) (machineWf_run h) hok

/-- The first process creates two others. -/
theorem nucleus_in_memory_sample : ∃ es m mem, (nucleus sampleLayout sampleBoot).Run es m ∧
    m.kernel.procq .readyQueueLo = [18, 17] ∧
    (nucleusInMemory sampleLayout sampleBoot).Run es mem ∧ StandsFor mem m.kernel ∧
    EndsAlike (mem.outcome sampleLayout (Event.quiet m (callHw YIELD 0 0 0, .ignore)))
      (m.outcome sampleLayout (Event.quiet m (callHw YIELD 0 0 0, .ignore))) := by
  rcases exists_run (L := sampleLayout) (b := sampleBoot)
    [(callHw CREATEPROCESS 0x20002000 0 0x20003000, .ignore),
      (callHw CREATEPROCESS 0x20002000 0 0x20003000, .ignore)]
    (fun m => (Event.quiet m (callHw YIELD 0 0 0, .ignore)).Ok sampleLayout m ∧
      m.kernel.procq .readyQueueLo = [18, 17])
    (by decide +kernel) with ⟨es, m, hrun, hok, hlo⟩
  rcases nucleus_in_memory hrun with ⟨⟨mem, hmem⟩, hall⟩
  exact ⟨es, m, mem, hrun, hlo, hmem, (hall mem hmem).1, (hall mem hmem).2 _ hok⟩

end Pandos
