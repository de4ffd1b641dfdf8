import Dsp56300.Emu.InstructionLength
import Dsp56300.Emu.RunLoop

namespace Dsp56300.Emitter

open Lib.Programs Lib.Programs.Code

set_option linter.constructorNameAsVariable false

variable {σ : Type}

/-- The variables of compiled code, and the PC it has stored if any. -/
structure Vars where
  instLen : Nat := 0
  totalCycles : Nat := 0
  pc : Option Word := none
  deriving DecidableEq

def Vars.after : Tracks Op Vars
  | _, .setInstLen len, v => { v with instLen := len }
  | _, .setCycles n, v => { v with totalCycles := v.totalCycles + n }
  | _, .storePc pc, v => { v with pc := some pc }
  | _, _, v => v

/-- A machine that carries out the operations, with the variables of the code beside it. -/
def withVars (h : Handler Op σ) : Handler Op (σ × Vars) := fun γ e s =>
  ((h γ e s.1).1, (h γ e s.1).2, Vars.after γ e s.2)

/-- The function compiled for one instruction: at its end the length is what `pc_advance` gets,
and the cycles are returned. -/
def compileInstruction (h : Handler Op σ) (inst : Instruction) (pc nextWord : Word) (s : σ) :
    σ × Vars :=
  ((emitInstruction inst pc nextWord).run (withVars h) (s, {})).2

def Vars.recorded (v : Vars) : Recorded := ⟨v.instLen, v.pc.isSome⟩

theorem recorded_after (γ : Type) (e : Op γ) (v : Vars) :
    (v.after γ e).recorded = record γ e v.recorded := by
  cases e <;> rfl

/-- The length compiled code leaves is 0 where it stored PC, and the length of the instruction
otherwise. -/
theorem instLen_of_code (h : Handler Op σ) (opcode pc nextWord : Word) (s : σ) :
    let v := (compileInstruction h (decode opcode) pc nextWord s).2
    v.instLen = if v.pc.isSome then 0 else instructionLength (decode opcode) := by
  have hr := (emitInstruction_records opcode pc nextWord).keeps 0
  have hv := @Always.run Op Unit (σ × Vars) Recorded record (withVars h) (fun s => s.2.recorded) _ _
    (s, {}) (fun γ e s => recorded_after γ e s.2) hr
  exact hv

/-! What the code depends on. -/

theorem emitInstruction_pc {inst : Instruction} (h : instructionUsesPc inst = false)
    (pc pc' nextWord : Word) :
    emitInstruction inst pc nextWord = emitInstruction inst pc' nextWord := by
  cases inst <;> first | rfl | contradiction

theorem emitParallelEa_congr {eaField : Word} (h : (eaField >>> 3) &&& 7 ≠ 6) (u v : Word) :
    emitParallelEa eaField u = emitParallelEa eaField v := by
  rw [emitParallelEa, emitCalcEaExt_congr h u v]
  rfl

theorem emitParallel_nextWord {alu : ParallelAlu} {moveType : ParallelMoveType} {opcode : Word}
    (h : instructionLength (.parallel alu moveType opcode) ≠ 2) (u v : Word) :
    emitParallel opcode moveType alu u = emitParallel opcode moveType alu v := by
  have hm (he : (opcode >>> 11) &&& 7 ≠ 6) : emitParallelEa ((opcode >>> 8) &&& 0x3F) u =
      emitParallelEa ((opcode >>> 8) &&& 0x3F) v :=
    emitParallelEa_congr (mode_of_field opcode ▸ he) u v
  have h5 (he : ¬ (HasEa opcode ∧ (opcode >>> 11) &&& 7 = 6)) :
      emitPm5 opcode alu u = emitPm5 opcode alu v := by
    unfold emitPm5
    dsimp only
    by_cases ha : HasEa opcode
    · rw [hm fun h6 => he ⟨ha, h6⟩]
    · have h0 := not_not.mp (mt (hasEa_iff opcode).mpr ha)
      rw [if_pos h0, if_pos h0]
  have h4 (he : ¬ (HasEa opcode ∧ (opcode >>> 11) &&& 7 = 6)) :
      emitPm4x opcode alu u = emitPm4x opcode alu v := by
    unfold emitPm4x
    dsimp only
    by_cases ha : HasEa opcode
    · rw [hm fun h6 => he ⟨ha, h6⟩]
    · have h0 := mt (hasEa_iff opcode).mpr ha
      rw [if_neg h0, if_neg h0]
  cases moveType with
  | pm0 => rw [emitParallel, emitParallel, emitPm0, emitPm0, hm fun he => h (if_pos he)]
  | pm1 => rw [emitParallel, emitParallel, emitPm1, emitPm1, hm fun he => h (if_pos he)]
  | pm4 =>
    have he : ¬ (HasEa opcode ∧ (opcode >>> 11) &&& 7 = 6) := fun he => h (if_pos he)
    rw [emitParallel, emitParallel]
    simp only [emitPm4, h4 he, h5 he]
  | pm5 => rw [emitParallel, emitParallel, h5 fun he => h (if_pos he)]
  | _ => rfl

theorem emitInstruction_nextWord {inst : Instruction} (hok : inst.EaOk)
    (h : instructionLength inst ≠ 2) (pc u v : Word) :
    emitInstruction inst pc u = emitInstruction inst pc v := by
  have hm {ea : Byte} (hlt : ea.toNat < 2 ^ 6) (he : (if ea >>> 3 = 6 then 2 else 1) ≠ 2) :
      emitCalcEaExt (ea.setWidth 32) u = emitCalcEaExt (ea.setWidth 32) v :=
    emitCalcEaExt_congr (fun h6 => he (if_pos ((mode_six_iff ea hlt).mp h6))) u v
  cases inst with
  | parallel alu moveType opcode =>
    dsimp only [emitInstruction, emitInstructionBody]
    rw [emitParallel_nextWord h u v]
  | movep1 | movep23 | movepQq | movepQqPea | movecEa | movemEa | bclrEa | bsetEa | btstEa | bchgEa
  | jmpEa | jsrEa | jccEa | jsccEa | vsl | plockEa | punlockEa =>
    dsimp only [emitInstruction, emitInstructionBody, emitMovep1, emitMovep23, emitMovepQq,
      emitMovepQqPea, emitMovecEa, emitMovemEa, emitBitOpEa, emitJmpEa, emitJsrEa, emitJccEa,
      emitJsccEa, emitVsl]
    rw [hm hok h]
  | _ => first | exact absurd rfl h | rfl

/-- Fetches with one cache key have one code. -/
theorem emitInstruction_of_key {pc opcode nextWord pc' opcode' nextWord' : Word}
    (hk : instrKey pc opcode nextWord = instrKey pc' opcode' nextWord') :
    emitInstruction (decode opcode) pc nextWord = emitInstruction (decode opcode') pc' nextWord' := by
  simp only [instrKey, Prod.mk.injEq] at hk
  obtain ⟨hpc, rfl, hnw⟩ := hk
  have h1 : emitInstruction (decode opcode) pc nextWord =
      emitInstruction (decode opcode) pc' nextWord := by
    cases hu : instructionUsesPc (decode opcode) with
    | false => exact emitInstruction_pc hu pc pc' nextWord
    | true =>
      rw [hu] at hpc
      rw [show pc = pc' from hpc]
  rw [h1]
  by_cases hl : instructionLength (decode opcode) > 1
  · rw [if_pos hl, if_pos hl] at hnw
    rw [hnw]
  · exact emitInstruction_nextWord (decode_eaOk opcode) (by omega) pc' nextWord nextWord'

/-- The single-instruction cache is sound: fetches that share an entry compile to one function on
every machine, since the code depends on PC and on the next word only where the key does. -/
theorem instruction_cache_sound {pc opcode nextWord pc' opcode' nextWord' : Word}
    (hk : instrKey pc opcode nextWord = instrKey pc' opcode' nextWord') :
    (∀ (σ : Type) (h : Handler Op σ), compileInstruction h (decode opcode) pc nextWord =
      compileInstruction h (decode opcode') pc' nextWord') ∧
    (instructionUsesPc (decode opcode) = false → ∀ q w,
      emitInstruction (decode opcode) q w = emitInstruction (decode opcode) pc w) ∧
    (instructionLength (decode opcode) ≠ 2 → ∀ q w,
      emitInstruction (decode opcode) q w = emitInstruction (decode opcode) q nextWord) := by
  refine ⟨?_, ?_, ?_⟩
  · intro σ h
    unfold compileInstruction
    rw [emitInstruction_of_key hk]
  · intro hu q w
    exact emitInstruction_pc hu q pc w
  · intro hl q w
    exact emitInstruction_nextWord (decode_eaOk opcode) hl q w nextWord

/-- CLR A at two addresses, before two words. -/
theorem instruction_cache_sound_clr :
    instrKey 0x10 0x200013 0x111111 = instrKey 0x20 0x200013 0x222222 ∧
    (∀ (σ : Type) (h : Handler Op σ), compileInstruction h (decode 0x200013) 0x10 0x111111 =
      compileInstruction h (decode 0x200013) 0x20 0x222222) := by
  have hd : decode 0x200013 = .parallel (.clr .a) .pm2 0x200013 := rfl
  have hk : instrKey 0x10 0x200013 0x111111 = instrKey 0x20 0x200013 0x222222 := by
    rw [instrKey, instrKey, hd]
    rfl
  exact ⟨hk, (instruction_cache_sound hk).1⟩

end Dsp56300.Emitter
