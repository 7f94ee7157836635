import Mathlib
import OrgDeploy.Proofs.Run.Hash
import OrgDeploy.Proofs.Run.Completion
import OrgDeploy.Proofs.Engine.Serial

/-!
# What a successful run records

A run of a task graph changes the world through its collaborators; the part of the world a hook
watches (`Flight.Hooks`) changes only when a move takes a success. This file turns that into a
replay: the watched part at the end of a successful run is the fold of the hook over the
successes taken, in order.

* `runGraph_success_replays`: a successful run of a built graph replays a list of successes,
  each of a task of the graph with an outcome that carrying the task out gave, and with every
  task of the graph among them.
* `recordSuccess` / `recordSuccesses`: a success leaves `DeployTask.recordLeft` under its own
  unit and record key (a record for a create-or-update, none for a delete) and every other
  entry alone (`get?_recordSuccesses_of_untouched`, `get?_recordSuccesses_of_touched`); it keeps
  the tables keyed, none of them empty, and the bindings as they were (`recordSuccesses_kept`).
* `Services.engine_built_hooks`: for the engine's collaborators, the state being built is such a
  watched part, with `recordSuccess` as its hook.
-/

namespace OrgDeploy

variable {δ σ S : Type}

/-! ## What a run builds -/

/-- The success a move takes, with the task of the graph it is of. -/
def Move.takenTask (g : TaskGraph δ) (m : Move) : Option (DeployTask δ × Outcome) :=
  m.success?.bind fun x => g.tasks[x.1]?.map (·, x.2)

/-- The tasks of the successes taken are those at the indices the run reports succeeded. -/
theorem Move.map_fst_takenTask (g : TaskGraph δ) (ms : List Move) :
    (ms.filterMap (Move.takenTask g)).map Prod.fst =
      (ms.filterMap Move.succeeded?).filterMap (g.tasks[·]?) := by
  rw [← Move.map_fst_successes, List.filterMap_map, List.map_filterMap, List.filterMap_filterMap]
  refine List.filterMap_congr fun m _ => ?_
  cases hm : m.success? with
  | none => simp [Move.takenTask, hm]
  | some y => simp [Move.takenTask, hm, Option.map_map, Function.comp_def]

namespace Flight

variable {g : TaskGraph δ} {c : Collaborators δ σ} {opts : RunOptions} {π : σ → S}
  {hook : DeployTask δ → Outcome → S → S}

/-- One move changes the part `π` of the world only by reporting the success it takes. -/
theorem Step.hooked (hc : Hooks g c π hook) {f f' : Flight σ} {m : Move}
    (h : Step g c opts f m f') :
    π f'.world = ((m.takenTask g).map fun x => hook x.1 x.2 (π f.world)).getD (π f.world) := by
  cases h with
  | observe cancelled _ =>
    show π _ = π f.world
    unfold observed
    dsimp only
    split <;> split <;> rfl
  | start _ hready _ =>
    simp only [started, hready]
    split <;> rfl
  | close => rfl
  | finish _ _ =>
    rename_i i
    simp only [finished]
    split
    · rfl
    · rename_i t ht
      exact hc.execute t (Array.mem_of_getElem? ht) f.world
  | settle hstage hdone =>
    rename_i pre post i outcome
    simp only [settled, Progress.settle]
    cases outcome with
    | ok o =>
      cases ht : g.tasks[i]? with
      | none => simp [Move.takenTask, Move.success?, ht]
      | some t => simp [Move.takenTask, Move.success?, ht, hc.completed t (Array.mem_of_getElem? ht)]
    | error e =>
      cases ht : g.tasks[i]? with
      | none => simp [Move.takenTask, Move.success?]
      | some t =>
        simp only [Move.takenTask, Move.success?, Option.bind_none, Option.map_none, Option.getD_none]
        split <;> rfl
  | stop => rfl

/-- Along a run, the part `π` of the world is what reporting the successes taken, in order,
made of it. -/
theorem Flies.hooked (hc : Hooks g c π hook) {f f' : Flight σ} {ms : List Move}
    (h : Flies g c opts f ms f') :
    π f'.world = (ms.filterMap (Move.takenTask g)).foldl (fun s x => hook x.1 x.2 s) (π f.world) := by
  induction h with
  | refl => rfl
  | @tail f₂ f₃ ms₁ m _ hstep ih =>
    rw [Step.hooked hc hstep, ih, List.filterMap_append, List.foldl_append]
    cases hm : m.takenTask g <;> simp [hm]

/-- Every outcome waiting was carried out on a world whose part `π` is what reporting the first
successes of `taken`, in order, made of `s₀`. -/
def ExecutedAfter (g : TaskGraph δ) (c : Collaborators δ σ) (π : σ → S)
    (hook : DeployTask δ → Outcome → S → S) (s₀ : S) (taken : List (DeployTask δ × Outcome))
    (f : Flight σ) : Prop :=
  ∀ x ∈ f.progress.done, ∃ t w L₁, g.tasks[x.1]? = some t ∧ L₁ <+: taken ∧
    π w = L₁.foldl (fun s y => hook y.1 y.2 s) s₀ ∧ ((execute c t).run w).1 = x.2

theorem ExecutedAfter.of_prefix {s₀ : S} {taken taken' : List (DeployTask δ × Outcome)}
    {f : Flight σ} (h : ExecutedAfter g c π hook s₀ taken f) (hpre : taken <+: taken') :
    ExecutedAfter g c π hook s₀ taken' f := fun x hx => by
  obtain ⟨t, w, L₁, ht, hL₁, hw, hexec⟩ := h x hx
  exact ⟨t, w, L₁, ht, hL₁.trans hpre, hw, hexec⟩

/-- A move carries a task out on its world, whose part `π` is what the successes taken so far
made: the outcomes waiting stay carried out after first successes of the taken ones. -/
theorem Step.executedAfter {f f' : Flight σ} {m : Move} (h : Step g c opts f m f') {s₀ : S}
    {taken : List (DeployTask δ × Outcome)}
    (hw : π f.world = taken.foldl (fun s y => hook y.1 y.2 s) s₀)
    (hf : ExecutedAfter g c π hook s₀ taken f) :
    ExecutedAfter g c π hook s₀ (taken ++ (m.takenTask g).toList) f' :=
  Step.done_of h (fun _ hx => hx)
    (fun _ t ht => ⟨t, f.world, taken, ht, List.prefix_append _ _, hw, rfl⟩)
    (hf.of_prefix (List.prefix_append _ _))

/-- Along a run from a flight with nothing waiting, every success taken is what carrying out its
task gave on a world whose part `π` is what the successes taken before it made. -/
theorem Flies.successes_executedAfter (hc : Hooks g c π hook) {f f' : Flight σ} {ms : List Move}
    (h : Flies g c opts f ms f') (hf : f.progress.done = []) :
    ExecutedAfter g c π hook (π f.world) (ms.filterMap (Move.takenTask g)) f' ∧
    ∀ x ∈ ms.filterMap Move.success?, ∃ t w L₁, g.tasks[x.1]? = some t ∧
      L₁ <+: ms.filterMap (Move.takenTask g) ∧
      π w = L₁.foldl (fun s y => hook y.1 y.2 s) (π f.world) ∧
      ((execute c t).run w).1 = .ok x.2 := by
  induction h with
  | refl => exact ⟨fun x hx => by simp [hf] at hx, by simp⟩
  | @tail f₂ f₃ ms₁ m hfl hstep ih =>
    have hpre : ms₁.filterMap (Move.takenTask g) <+: (ms₁ ++ [m]).filterMap (Move.takenTask g) := by
      rw [Move.filterMap_snoc]
      exact List.prefix_append _ _
    refine ⟨by rw [Move.filterMap_snoc]; exact Step.executedAfter hstep (Flies.hooked hc hfl) ih.1,
      fun x hx => ?_⟩
    rw [Move.filterMap_snoc, List.mem_append] at hx
    -- an earlier success, or the one this move takes, which was waiting
    obtain ⟨t, w, L₁, ht, hL₁, hw, hexec⟩ := hx.elim (ih.2 x) fun hx =>
      ih.1 _ (Step.success_waiting hstep (by simpa using hx))
    exact ⟨t, w, L₁, ht, hL₁.trans hpre, hw, hexec⟩

end Flight

/-- A run of a built graph that succeeds builds the part `π` of its world by reporting successes
of tasks of the graph, of each task exactly once. Each success is an outcome that carrying its
task out gave on a world whose part `π` is what the successes before some point of the list
made of it. -/
theorem runGraph_success_replays {tasks : List (DeployTask δ)} {g : TaskGraph δ}
    (hg : TaskGraph.build tasks = .ok g) {c : Collaborators δ σ} {π : σ → S}
    {hook : DeployTask δ → Outcome → S → S} (hc : Flight.Hooks g c π hook) (opts : RunOptions)
    (cancelled : Bool) (w : σ) (hsucc : (runGraph opts g c cancelled w).1.isSuccess = true) :
    ∃ L : List (DeployTask δ × Outcome),
      π (runGraph opts g c cancelled w).2.2 = L.foldl (fun s x => hook x.1 x.2 s) (π w) ∧
      (L.map Prod.fst).Nodup ∧
      (∀ x ∈ L, x.1 ∈ g.tasks ∧ ∃ L₁ w₀ w₁, L₁ <+: L ∧
        π w₀ = L₁.foldl (fun s y => hook y.1 y.2 s) (π w) ∧
        (execute c x.1).run w₀ = (.ok x.2, w₁)) ∧
      ∀ t ∈ g.tasks, ∃ o, (t, o) ∈ L := by
  have hb := TaskGraph.build_built hg
  have ha := hb.adjacency_size
  obtain ⟨ms, hms⟩ := @Flight.flies_drive δ σ g c opts cancelled (6 * (g.size + 1))
    {} (Flight.launch g w)
  have hex := (Flight.Flies.successes_executedAfter hc hms rfl).2
  obtain ⟨htr, -⟩ := Flight.Flies.traced ha hms
  refine ⟨ms.filterMap (Move.takenTask g), Flight.Flies.hooked hc hms, ?_, fun x hx => ?_,
    fun t ht => ?_⟩
  · -- a task succeeds once, and distinct indices hold distinct tasks
    rw [Move.map_fst_takenTask]
    exact htr.successes_nodup.filterMap fun i j t hi hj => hb.eq_of_id_eq hi hj rfl
  · -- a success taken is of a task of the graph, and carrying that task out gave its outcome
    obtain ⟨m, hm, hmx⟩ := List.mem_filterMap.mp hx
    obtain ⟨y, hy, hyx⟩ := Option.bind_eq_some_iff.mp hmx
    obtain ⟨t, ht, rfl⟩ := Option.map_eq_some_iff.mp hyx
    obtain ⟨t', w₀, L₁, ht', hL₁, hw₀, hexec⟩ := hex y (List.mem_filterMap.mpr ⟨m, hm, hy⟩)
    rw [ht] at ht'
    cases ht'
    exact ⟨Array.mem_of_getElem? ht, L₁, w₀, _, hL₁, hw₀, Prod.ext hexec rfl⟩
  · -- every task succeeded, and the result lists the tasks of the successes taken
    have hid := runGraph_succeeded_all ha opts cancelled w hsucc t ht
    change t.id ∈ (Flight.drive g c opts cancelled (6 * (g.size + 1)) {}
      (Flight.launch g w)).progress.result.succeeded at hid
    rw [htr.result_succeeded, ← Move.map_fst_successes, List.map_map] at hid
    obtain ⟨y, hy, hyid⟩ := List.mem_map.mp hid
    obtain ⟨t', -, -, ht', -⟩ := hex y hy
    obtain ⟨k, hk⟩ := Array.mem_iff_getElem?.mp ht
    have hyk : y.1 = k := hb.eq_of_id_eq ht' hk (by
      simpa [Function.comp_def, Progress.idOf_of_getElem? g ht'] using hyid)
    rw [hyk, hk] at ht'
    cases ht'
    obtain ⟨m, hm, hmy⟩ := List.mem_filterMap.mp hy
    refine ⟨y.2, List.mem_filterMap.mpr ⟨m, hm, ?_⟩⟩
    simp [Move.takenTask, hmy, hyk, hk]

/-! ## What recording successes leaves -/

/-- What a success leaves under its own unit and record key: the record of a create-or-update,
and nothing after a delete. -/
def DeployTask.recordLeft (t : DeployTask δ) (o : Outcome) (now : Timestamp) : Option Record :=
  match t.action with
  | .createOrUpdate => some (recordOf t o now)
  | .delete => none

section Records

variable {units : List UnitDef} {now : Timestamp}

/-- A success changes the records of its own unit under its own key alone. -/
theorem get?_recordTable_recordSuccess (t : DeployTask δ) (o : Outcome) (st : State)
    (n k : String) :
    ((recordSuccess units now t o st).recordTable n).get? k =
      if t.id.unit = n ∧ t.target.key = k then t.recordLeft o now
      else (st.recordTable n).get? k := by
  rw [recordTable_recordSuccess]
  unfold DeployTask.recordsAfter DeployTask.recordLeft
  by_cases hn : t.id.unit = n
  · subst hn
    by_cases hk : t.target.key = k
    · subst hk
      cases t.action <;> simp [Table.get?_insert, Table.get?_erase]
    · cases t.action <;> simp [Table.get?_insert, Table.get?_erase, Ne.symm hk, hk]
  · simp [hn, Ne.symm hn]

theorem recordSuccesses_cons (x : DeployTask δ × Outcome) (L : List (DeployTask δ × Outcome))
    (st : State) :
    recordSuccesses units now (x :: L) st =
      recordSuccesses units now L (recordSuccess units now x.1 x.2 st) := rfl

/-- Successes none of which is at unit `n` and key `k` leave the record there as it was. -/
theorem get?_recordSuccesses_of_untouched {n k : String} {L : List (DeployTask δ × Outcome)}
    (h : ∀ x ∈ L, ¬ (x.1.id.unit = n ∧ x.1.target.key = k)) (st : State) :
    ((recordSuccesses units now L st).recordTable n).get? k = (st.recordTable n).get? k := by
  induction L generalizing st with
  | nil => rfl
  | cons x L ih =>
    rw [recordSuccesses_cons, ih (fun y hy => h y (List.mem_cons_of_mem _ hy)),
      get?_recordTable_recordSuccess, if_neg (h x List.mem_cons_self)]

/-- Successes some of which are at unit `n` and key `k` leave there what the last of them
leaves: whatever holds of what each of them leaves holds of the record there. -/
theorem get?_recordSuccesses_of_touched {n k : String} (P : Option Record → Prop)
    {L : List (DeployTask δ × Outcome)} (hx : ∃ x ∈ L, x.1.id.unit = n ∧ x.1.target.key = k)
    (hall : ∀ x ∈ L, x.1.id.unit = n → x.1.target.key = k → P (x.1.recordLeft x.2 now))
    (st : State) : P (((recordSuccesses units now L st).recordTable n).get? k) := by
  induction L generalizing st with
  | nil =>
    obtain ⟨x, hx, -⟩ := hx
    cases hx
  | cons y L ih =>
    rw [recordSuccesses_cons]
    by_cases hL : ∃ x ∈ L, x.1.id.unit = n ∧ x.1.target.key = k
    · exact ih hL (fun x hx => hall x (List.mem_cons_of_mem _ hx)) _
    · -- no later success is there, so `y` is, and what it leaves stays
      have hy : y.1.id.unit = n ∧ y.1.target.key = k := by
        obtain ⟨x, hx, hxnk⟩ := hx
        rcases List.mem_cons.mp hx with rfl | hx
        · exact hxnk
        · exact absurd ⟨x, hx, hxnk⟩ hL
      rw [get?_recordSuccesses_of_untouched (fun x hx hxnk => hL ⟨x, hx, hxnk⟩),
        get?_recordTable_recordSuccess, if_pos hy]
      exact hall y List.mem_cons_self hy.1 hy.2

/-- The successes up to some point leave at unit `n` and key `k` what all of them leave, or what
was there at the start, when no success before that point and none after it are both there. -/
theorem get?_recordSuccesses_prefix {n k : String} {L₁ L₂ : List (DeployTask δ × Outcome)}
    (hone : ∀ x ∈ L₁, ∀ y ∈ L₂, x.1.id.unit = n ∧ x.1.target.key = k →
      ¬ (y.1.id.unit = n ∧ y.1.target.key = k)) (st : State) :
    ((recordSuccesses units now L₁ st).recordTable n).get? k =
        ((recordSuccesses units now (L₁ ++ L₂) st).recordTable n).get? k ∨
      ((recordSuccesses units now L₁ st).recordTable n).get? k = (st.recordTable n).get? k := by
  have happend : recordSuccesses units now (L₁ ++ L₂) st =
      recordSuccesses units now L₂ (recordSuccesses units now L₁ st) := List.foldl_append
  by_cases h₂ : ∃ y ∈ L₂, y.1.id.unit = n ∧ y.1.target.key = k
  · -- a later success is there, so none of the first ones is
    obtain ⟨y, hy, hynk⟩ := h₂
    exact .inr (get?_recordSuccesses_of_untouched (fun x hx hxnk => hone x hx y hy hxnk hynk) st)
  · exact .inl (by
      rw [happend, get?_recordSuccesses_of_untouched (fun y hy hynk => h₂ ⟨y, hy, hynk⟩)])

/-- A success keeps every record of the state under its own key. -/
theorem recordSuccess_keyed {st : State} (h : ∀ n, ∀ kr ∈ st.recordTable n, kr.1 = kr.2.key)
    (t : DeployTask δ) (o : Outcome) :
    ∀ n, ∀ kr ∈ (recordSuccess units now t o st).recordTable n, kr.1 = kr.2.key := by
  intro n kr hkr
  rw [recordTable_recordSuccess] at hkr
  split at hkr
  · unfold DeployTask.recordsAfter at hkr
    split at hkr
    · rcases Table.mem_insert hkr with rfl | hkr
      · rfl
      · exact h n kr hkr
    · exact h n kr (List.mem_filter.mp hkr).1
  · exact h n kr hkr

/-- A success leaves no unit with an empty record table. -/
theorem recordSuccess_nonempty {st : State} (h : ∀ n, st.deployments.get? n ≠ some [])
    (t : DeployTask δ) (o : Outcome) (n : String) :
    (recordSuccess units now t o st).deployments.get? n ≠ some [] := by
  rw [get?_deployments_recordSuccess]
  split
  · exact Table.nonempty?_ne_some_nil _
  · exact h n

variable (units now) in
/-- Successes keep every record under its own key, no record table empty, and the identifier
bindings. -/
theorem recordSuccesses_kept {st : State} (hkey : ∀ n, ∀ kr ∈ st.recordTable n, kr.1 = kr.2.key)
    (hne : ∀ n, st.deployments.get? n ≠ some []) (L : List (DeployTask δ × Outcome)) :
    (∀ n, ∀ kr ∈ (recordSuccesses units now L st).recordTable n, kr.1 = kr.2.key) ∧
      (∀ n, (recordSuccesses units now L st).deployments.get? n ≠ some []) ∧
      (recordSuccesses units now L st).bindings = st.bindings := by
  induction L generalizing st with
  | nil => exact ⟨hkey, hne, rfl⟩
  | cons x L ih =>
    rw [recordSuccesses_cons]
    obtain ⟨hkey', hne', hb⟩ := ih (recordSuccess_keyed hkey x.1 x.2)
      (recordSuccess_nonempty hne x.1 x.2)
    have hframe : (recordSuccess units now x.1 x.2 st).frame = st.frame := frame_recordSuccess
    exact ⟨hkey', hne', hb.trans (congrArg (fun f => f.2.1) hframe)⟩

end Records

/-! ## The engine's runs -/

namespace Services

open Effect

variable (sv : Services σ) (o : Organization) (units : List UnitDef)

/-- Carrying out a task of the engine leaves the state being built alone. -/
theorem execute_keeps_built (t : DeployTask (Deployable σ)) :
    Reads (fun _ _ => False) (execute (engineCollaborators sv o units) t) := by
  -- over no pair of states, `Reads` asks only that the state being built is kept
  have hslot : ∀ {ε α : Type} (m : Act σ ε α) (wrap : ε → TaskError),
      Reads (fun _ _ => False) (worldSlot.run m wrap) :=
    fun _ _ => ⟨fun _ => rfl, fun _ _ _ _ h => h.elim⟩
  have hhash : ∀ d a, Reads (fun _ _ => False)
      ((engineCollaborators sv o units).contentHash d a) :=
    fun _ _ => ⟨fun _ => rfl, fun _ _ _ _ h => h.elim⟩
  have happly : ∀ ah : Artifact × String, Reads (fun _ _ => False)
      ((engineCollaborators sv o units).apply t.deployable t.target ah.1 >>= fun outputs =>
        Pure.pure ({ outputs, contentHash := some ah.2 } : Outcome)) := by
    intro ah
    refine Reads.bind ?_ fun _ => Reads.pure _
    cases t.deployable <;> exact hslot _ _
  unfold execute
  split
  · dsimp only
    split
    · exact ((sv.resolve_reads t).mono fun _ _ h => h.elim).bind fun a =>
        (hhash _ a).bind fun _ => (Reads.pure _).bind fun ah => happly ah
    · split
      · exact (Reads.throw _).bind fun ah => happly ah
      · exact (Reads.pure _).bind fun ah => happly ah
      · exact (hhash _ _).bind fun _ => (Reads.pure _).bind fun ah => happly ah
  · refine Reads.bind ?_ fun _ => Reads.pure _
    cases t.deployable <;> exact hslot _ _

/-- The state being built is changed by recording successes alone. -/
theorem engine_built_hooks (g : TaskGraph (Deployable σ)) :
    Flight.Hooks g (engineCollaborators sv o units) Prod.snd (recordSuccess units sv.now) where
  execute t _ x := (sv.execute_keeps_built o units t).keeps x
  completed t _ outcome x := by
    obtain ⟨w, st⟩ := x
    rfl

end Services

end OrgDeploy
