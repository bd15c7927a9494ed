import BoardRollup.Batch
import BoardRollup.Proofs.Lookups

/-!
# What a batch asks for

A batch asks for linked items at most once. It asks for nothing if no column refers to an
id, and otherwise for the ids that its columns refer to, ascending by their bytes and
so each once, and none of them empty. Whatever the answer is, no other request follows,
and an error is passed on as it is.

Requests are counted on a log that every request is entered in, over any monad in which
the answers come.
-/

namespace BoardRollup

namespace Fetch

variable {α ε : Type} {n : Type → Type} [Monad n]

/-- A fetch that enters each request in a log and then gives what is answered, a failure
included. -/
def recorded (ask : List String → n (Except ε (List LinkedItem))) :
    Fetch (ExceptT ε (StateT (List (List String)) n)) :=
  fun ids => ExceptT.mk fun log => do
    let answer ← ask ids
    return (answer, log ++ [ids])

/-- A use of the answer follows no failure, and enters nothing. -/
theorem run_recorded_map [LawfulMonad n] (ask : List String → n (Except ε (List LinkedItem)))
    (use : List LinkedItem → α) (ids : List String) (log : List (List String)) :
    (recorded ask ids >>= fun linked => pure (use linked)).run.run log = do
      let answer ← ask ids
      return (answer.map use, log ++ [ids]) := by
  have entered : (recorded ask ids).run.run log = do
      let answer ← ask ids
      return (answer, log ++ [ids]) := rfl
  rw [ExceptT.run_bind, StateT.run_bind, entered, bind_assoc]
  refine bind_congr fun answer => ?_
  rw [pure_bind]
  cases answer with
  | error e => rfl
  | ok linked => rfl

end Fetch

namespace Batch

def Refers (batch : Batch) (id : String) : Prop :=
  ∃ item ∈ batch.items, ∃ c ∈ item.columns, c.Refers id

section
variable {batch : Batch} {id : String}

theorem mem_linkedIds : id ∈ batch.linkedIds ↔ batch.Refers id := by
  rw [linkedIds, IdSet.mem_ofList, List.mem_flatMap]
  constructor
  · rintro ⟨item, mem, refers⟩
    obtain ⟨c, mem', refers⟩ := List.mem_flatMap.mp refers
    exact ⟨item, mem, c, mem', Column.mem_references.mp refers⟩
  · rintro ⟨item, mem, c, mem', refers⟩
    exact ⟨item, mem, List.mem_flatMap.mpr ⟨c, mem', Column.mem_references.mpr refers⟩⟩

theorem Refers.ne_empty (h : batch.Refers id) : id ≠ "" := by
  obtain ⟨_, _, _, _, refers⟩ := h
  exact refers.ne_empty

/-- A batch asks for no id exactly if its columns refer to none. -/
theorem linkedIds_eq_nil_iff : batch.linkedIds = [] ↔ ∀ id, ¬ batch.Refers id := by
  rw [List.eq_nil_iff_forall_not_mem]
  exact forall_congr' fun id => not_congr mem_linkedIds

/-- Whatever a pass looks up for an item of the batch is asked for. -/
theorem mem_linkedIds_of_mem_lookups {item : Item} {c : Column} (mem : item ∈ batch.items)
    (mem' : c ∈ item.columns) (h : id ∈ c.lookups item) (shown : id ≠ "") :
    id ∈ batch.linkedIds := by
  obtain ⟨d, here, refers⟩ := Item.refers_of_mem_lookups mem' h shown
  exact mem_linkedIds.mpr ⟨item, mem, d, here, refers⟩

end

section
variable {m : Type → Type} [Monad m] [LawfulMonad m] (batch : Batch) (fetch : Fetch m)

theorem aggregate_of_no_ids (h : batch.linkedIds = []) :
    batch.aggregate fetch = pure (batch.gather .empty) := by
  rw [aggregate, LinkedIndex.resolve, if_pos h, pure_bind]

theorem aggregate_of_ids (h : batch.linkedIds ≠ []) :
    batch.aggregate fetch = do
      let linked ← fetch batch.linkedIds
      return batch.gather (.ofItems linked) := by
  rw [aggregate, LinkedIndex.resolve, if_neg h, bind_assoc]
  simp only [pure_bind]

end

/-- A batch asks once or not at all. -/
theorem aggregate_requests {ε : Type} {n : Type → Type} [Monad n] [LawfulMonad n]
    (batch : Batch) (ask : List String → n (Except ε (List LinkedItem)))
    (log : List (List String)) :
    ((∀ id, ¬ batch.Refers id) →
      ((batch.aggregate (Fetch.recorded ask)).run.run log) =
        pure (.ok (batch.gather .empty), log)) ∧
    ((∃ id, batch.Refers id) →
      ((batch.aggregate (Fetch.recorded ask)).run.run log) = do
        let answer ← ask batch.linkedIds
        return (answer.map fun linked => batch.gather (.ofItems linked),
          log ++ [batch.linkedIds])) ∧
    (batch.linkedIds.Pairwise fun a b => utf8Bytes a < utf8Bytes b) ∧
    "" ∉ batch.linkedIds ∧
    (∀ id, id ∈ batch.linkedIds ↔ batch.Refers id) ∧
    ∀ item ∈ batch.items, ∀ c ∈ item.columns, ∀ id ∈ c.lookups item, id ≠ "" →
      id ∈ batch.linkedIds := by
  refine ⟨?unasked, ?asked, ?ascending, ?shown, ?union, ?closed⟩
  case unasked =>
    intro none
    rw [aggregate_of_no_ids _ _ (linkedIds_eq_nil_iff.mpr none)]
    rfl
  case asked =>
    rintro ⟨id, refers⟩
    have some_id : batch.linkedIds ≠ [] :=
      List.ne_nil_of_mem (mem_linkedIds.mpr refers)
    rw [aggregate_of_ids _ _ some_id]
    exact Fetch.run_recorded_map ask (fun linked => batch.gather (.ofItems linked)) _ log
  case ascending => exact IdSet.ofList_ascending_bytes _
  case shown =>
    intro mem
    exact (mem_linkedIds.mp mem).ne_empty rfl
  case union => exact fun _ => mem_linkedIds
  case closed =>
    intro item mem c mem' id looked shown
    exact mem_linkedIds_of_mem_lookups mem mem' looked shown

/-- A batch that refers to items 9 and 10 on a list, and to item 7 in a value. -/
def threeReferences : Batch where
  items := [.ofLink (some ["9", "", "10"]) .null,
    .ofLink (some ["9"]) (.str "\x7b\"linkedPulseIds\":[\x7b\"linkedPulseId\":7\x7d]\x7d")]

/-- An answer that fails comes back from the one request, which has each id once. -/
theorem aggregate_requests_refused :
    ((threeReferences.aggregate (m := ExceptT String (StateT (List (List String)) Id))
      (Fetch.recorded fun _ => pure (.error "refused"))).run.run []) =
        pure (.error "refused", [["10", "7", "9"]]) := by
  obtain ⟨_, asked, _⟩ := aggregate_requests (n := Id) threeReferences
    (fun _ => pure (.error "refused")) []
  have ids : threeReferences.linkedIds = ["10", "7", "9"] := by decide +kernel
  have refers : threeReferences.Refers "7" := by
    rw [← mem_linkedIds, ids]
    decide
  rw [asked ⟨"7", refers⟩, ids]
  rfl

end Batch

end BoardRollup
