import Mathlib
import OrgDeploy.Proofs.Run.Safety

/-!
# What a run does to its world

A run touches its world in two ways only: a worker that finishes carries out its task
(`execute`), and the coordinator that takes a success reports it to `completed`. Every other
move leaves the world as it was. `Step.world_cases` says so for one move, together with what the
move adds to the successes of the result: the task reported to `completed`, and nothing else.

From it, for every run, whatever the order in which workers finish and outcomes are taken:

* `runGraph_keeps`: a property of the world that carrying out any task of the graph keeps, and
  that `completed` keeps, holds of the world a run ends with;
* `runGraph_replays`: when a part of the world is changed by `completed` alone (`Hooks`), the
  part a run ends with is that of the start, with `completed` applied for each succeeded task,
  in the order the result lists them, which is the order in which the run took them.
-/

namespace OrgDeploy

namespace Flight

variable {δ σ : Type} {g : TaskGraph δ} {c : Collaborators δ σ} {opts : RunOptions}

/-- What one move does to the world and to the successes of the result: nothing, or a task of
the graph carried out, or a success of a task of the graph reported to `completed` and listed. -/
theorem Step.world_cases {f f' : Flight σ} {m : Move} (h : Step g c opts f m f') :
    (f'.world = f.world ∧ f'.progress.result.succeeded = f.progress.result.succeeded) ∨
    (∃ t ∈ g.tasks, f'.world = ((execute c t).run f.world).2 ∧
      f'.progress.result.succeeded = f.progress.result.succeeded) ∨
    (∃ t ∈ g.tasks, ∃ o, f'.world = c.completed t o f.world ∧
      f'.progress.result.succeeded = f.progress.result.succeeded ++ [t.id]) := by
  cases h with
  | observe cancelled h =>
    left
    unfold observed
    dsimp only
    split <;> split <;> simp [Progress.halt, Progress.emit]
  | start h hready hfree =>
    left
    simp only [started, hready]
    split <;> simp [Progress.emit]
  | close h hend => exact .inl ⟨rfl, rfl⟩
  | finish h hi =>
    rename_i i
    simp only [finished]
    split
    · exact .inl ⟨rfl, rfl⟩
    · rename_i t ht
      exact .inr (.inl ⟨t, Array.mem_of_getElem? ht, rfl, rfl⟩)
  | settle h hdone =>
    rename_i pre post i outcome
    simp only [settled, Progress.settle]
    split
    · exact .inl ⟨rfl, rfl⟩
    · -- a success is reported and listed; releasing its dependents leaves the result alone
      rename_i t o ht
      refine .inr (.inr ⟨t, Array.mem_of_getElem? ht, o, rfl, ?_⟩)
      rw [Progress.result_foldl_release]
      simp [Progress.markSucceeded, Progress.emit]
    · rename_i t e ht
      left
      refine ⟨by split <;> rfl, ?_⟩
      split <;>
        simp [Progress.halt, Progress.emit, Progress.skipDependents,
          Progress.result_succeeded_skipFrom, Progress.markFailed]
  | stop h hdone hidle =>
    left
    exact ⟨rfl, Progress.result_succeeded_finish g _⟩

/-! ## Properties the world keeps -/

/-- Carrying out any task of the graph keeps `P` of the world, and so does reporting a success
of one to `completed`. -/
structure Keeps (g : TaskGraph δ) (c : Collaborators δ σ) (P : σ → Prop) : Prop where
  execute : ∀ t ∈ g.tasks, ∀ w, P w → P ((OrgDeploy.execute c t).run w).2
  completed : ∀ t ∈ g.tasks, ∀ o w, P w → P (c.completed t o w)

theorem Step.keeps {P : σ → Prop} (hc : Keeps g c P) {f f' : Flight σ} {m : Move}
    (h : Step g c opts f m f') (hf : P f.world) : P f'.world := by
  rcases Step.world_cases h with ⟨hw, -⟩ | ⟨t, ht, hw, -⟩ | ⟨t, ht, o, hw, -⟩
  · exact hw ▸ hf
  · exact hw ▸ hc.execute t ht _ hf
  · exact hw ▸ hc.completed t ht o _ hf

theorem Flies.keeps {P : σ → Prop} (hc : Keeps g c P) {f f' : Flight σ} {ms : List Move}
    (h : Flies g c opts f ms f') (hf : P f.world) : P f'.world := by
  induction h with
  | refl => exact hf
  | tail _ hstep ih => exact Step.keeps hc hstep ih

end Flight

/-- A property kept by carrying out the tasks of a graph and by reporting their successes holds
of the world a run of the graph ends with. -/
theorem runGraph_keeps {δ σ : Type} {g : TaskGraph δ} {c : Collaborators δ σ} {P : σ → Prop}
    (opts : RunOptions) (cancelled : Bool) (hc : Flight.Keeps g c P) {w : σ} (hw : P w) :
    P (runGraph opts g c cancelled w).2.2 := by
  obtain ⟨ms, hms⟩ := @Flight.flies_drive δ σ g c opts cancelled (6 * (g.size + 1))
    {} (Flight.launch g w)
  exact Flight.Flies.keeps hc hms hw

/-! ## A part of the world built by `completed` -/

namespace Flight

variable {δ σ S : Type} {g : TaskGraph δ} {c : Collaborators δ σ} {opts : RunOptions}

/-- The part `π` of the world is left alone by carrying out any task of the graph, and changed
by `hook` when a success of one is reported to `completed`. -/
structure Hooks (g : TaskGraph δ) (c : Collaborators δ σ) (π : σ → S)
    (hook : DeployTask δ → Outcome → S → S) : Prop where
  execute : ∀ t ∈ g.tasks, ∀ w, π ((OrgDeploy.execute c t).run w).2 = π w
  completed : ∀ t ∈ g.tasks, ∀ o w, π (c.completed t o w) = hook t o (π w)

/-- The successes of a flight so far, tasks of the graph with their outcomes and in the order
the result lists them: replaying `hook` over them from `s₀` gives the part `π` of its world. -/
def Replays (g : TaskGraph δ) (π : σ → S) (hook : DeployTask δ → Outcome → S → S) (s₀ : S)
    (f : Flight σ) : Prop :=
  ∃ L : List (DeployTask δ × Outcome), (∀ x ∈ L, x.1 ∈ g.tasks) ∧
    L.map (·.1.id) = f.progress.result.succeeded ∧
    π f.world = L.foldl (fun s x => hook x.1 x.2 s) s₀

variable {π : σ → S} {hook : DeployTask δ → Outcome → S → S} {s₀ : S}

theorem Step.replays (hc : Hooks g c π hook) {f f' : Flight σ} {m : Move}
    (h : Step g c opts f m f') (hf : Replays g π hook s₀ f) : Replays g π hook s₀ f' := by
  obtain ⟨L, hmem, hids, hfold⟩ := hf
  rcases Step.world_cases h with ⟨hw, hs⟩ | ⟨t, ht, hw, hs⟩ | ⟨t, ht, o, hw, hs⟩
  · exact ⟨L, hmem, hids.trans hs.symm, by rw [hw, hfold]⟩
  · exact ⟨L, hmem, hids.trans hs.symm, by rw [hw, hc.execute t ht, hfold]⟩
  · -- the reported success goes at the end of the replay
    refine ⟨L ++ [(t, o)], fun x hx => ?_, by simp [hids, hs], ?_⟩
    · rcases List.mem_append.mp hx with hx | hx
      · exact hmem x hx
      · rw [List.mem_singleton.mp hx]
        exact ht
    · rw [hw, hc.completed t ht, hfold, List.foldl_append]
      rfl

theorem Flies.replays (hc : Hooks g c π hook) {f f' : Flight σ} {ms : List Move}
    (h : Flies g c opts f ms f') (hf : Replays g π hook s₀ f) : Replays g π hook s₀ f' := by
  induction h with
  | refl => exact hf
  | tail _ hstep ih => exact Step.replays hc hstep ih

end Flight

/-- When a part of the world is changed by `completed` alone, a run ends with that part as it
started, with `completed` applied for each task the run lists as succeeded, in that order. -/
theorem runGraph_replays {δ σ S : Type} {g : TaskGraph δ} {c : Collaborators δ σ} {π : σ → S}
    {hook : DeployTask δ → Outcome → S → S} (opts : RunOptions) (cancelled : Bool)
    (hc : Flight.Hooks g c π hook) (w : σ) :
    ∃ L : List (DeployTask δ × Outcome), (∀ x ∈ L, x.1 ∈ g.tasks) ∧
      L.map (·.1.id) = (runGraph opts g c cancelled w).1.succeeded ∧
      π (runGraph opts g c cancelled w).2.2 = L.foldl (fun s x => hook x.1 x.2 s) (π w) := by
  obtain ⟨ms, hms⟩ := @Flight.flies_drive δ σ g c opts cancelled (6 * (g.size + 1))
    {} (Flight.launch g w)
  exact Flight.Flies.replays hc hms ⟨[], by simp, rfl, rfl⟩

end OrgDeploy
