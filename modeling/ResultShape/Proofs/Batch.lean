import ResultShape.Batch
import ResultShape.Proofs.Routine.Settings
/-! Batches: the analyses of a batch are those of its inputs, in order, however many workers share
the inputs and in whatever order the workers take their turns. -/
namespace ResultShape

namespace Analyzer

section Pieces

variable {α : Type} (size : Nat)

private theorem pieces_cons (count : Nat) (x : α) (xs : List α) :
    pieces size (count + 1) (x :: xs) =
      (x :: xs).take size :: pieces size count ((x :: xs).drop size) := rfl

/-- Pieces leave out nothing, repeat nothing and keep the order. -/
theorem flatten_pieces (count : Nat) (xs : List α) : (pieces size count xs).flatten = xs := by
  induction count generalizing xs with
  | zero => cases xs <;> simp [pieces]
  | succ count ih =>
    cases xs with
    | nil => rfl
    | cons x xs => rw [pieces_cons, List.flatten_cons, ih, List.take_append_drop]

private theorem length_drop_le {count : Nat} {xs : List α} (h : xs.length ≤ (count + 1) * size) :
    (xs.drop size).length ≤ count * size := by
  rw [Nat.succ_mul] at h
  rw [List.length_drop]
  omega

/-- Where there is room for the whole list, there are no more pieces than asked for. -/
theorem length_pieces_le {count : Nat} {xs : List α} (h : xs.length ≤ count * size) :
    (pieces size count xs).length ≤ count := by
  induction count generalizing xs with
  | zero =>
    obtain rfl : xs = [] := List.eq_nil_of_length_eq_zero (by omega)
    exact Nat.le_refl 0
  | succ count ih =>
    cases xs with
    | nil => exact Nat.zero_le _
    | cons x xs =>
      rw [pieces_cons, List.length_cons]
      exact Nat.succ_le_succ (ih (length_drop_le size h))

/-- Where there is room for the whole list, no piece is longer than asked for. -/
theorem length_le_of_mem_pieces {count : Nat} {xs : List α} (h : xs.length ≤ count * size) :
    ∀ piece ∈ pieces size count xs, piece.length ≤ size := by
  induction count generalizing xs with
  | zero =>
    obtain rfl : xs = [] := List.eq_nil_of_length_eq_zero (by omega)
    exact fun _ hp => nomatch hp
  | succ count ih =>
    cases xs with
    | nil => exact fun _ hp => nomatch hp
    | cons x xs =>
      rw [pieces_cons]
      rintro piece (_ | ⟨_, hp⟩)
      · exact List.length_take_le _ _
      · exact ih (length_drop_le size h) piece hp

end Pieces

variable (a : Analyzer) (processors : Nat) (inputs : List RoutineInput)

/-- The shares of a batch, one for each worker. -/
def shares : List (List RoutineInput) :=
  let workers := min (a.workers processors) inputs.length
  if workers ≤ 1 then [inputs] else pieces ((inputs.length + workers - 1) / workers) workers inputs

/-- The size of a piece is rounded up, so the pieces have room for all inputs. -/
private theorem le_mul_ceil (n : Nat) {workers : Nat} (h : 1 < workers) :
    n ≤ workers * ((n + workers - 1) / workers) := by
  have hdivided := Nat.div_add_mod (n + workers - 1) workers
  have hrest := Nat.mod_lt (n + workers - 1) (Nat.lt_of_succ_lt h)
  omega

/-- One worker takes the whole batch, more than one take pieces that have room for it. -/
theorem shares_cases :
    let workers := min (a.workers processors) inputs.length
    let size := (inputs.length + workers - 1) / workers
    (workers ≤ 1 ∧ a.shares processors inputs = [inputs]) ∨
      (inputs.length ≤ workers * size ∧
        a.shares processors inputs = pieces size workers inputs) := by
  intro workers size
  rcases Nat.lt_or_ge 1 workers with h | h
  · exact .inr ⟨le_mul_ceil inputs.length h, if_neg (Nat.not_le_of_lt h)⟩
  · exact .inl ⟨h, if_pos h⟩

theorem flatten_shares : (a.shares processors inputs).flatten = inputs := by
  rcases a.shares_cases processors inputs with ⟨-, hshares⟩ | ⟨-, hshares⟩
  · rw [hshares, List.flatten_singleton]
  · rw [hshares, flatten_pieces]

theorem workers_pos : 0 < a.workers processors := by
  unfold workers
  split <;> omega

/-- There are no more shares than there may be workers. -/
theorem length_shares_le : (a.shares processors inputs).length ≤ a.workers processors := by
  rcases a.shares_cases processors inputs with ⟨-, hshares⟩ | ⟨hroom, hshares⟩
  · rw [hshares]
    exact a.workers_pos processors
  · rw [hshares]
    exact (length_pieces_le _ hroom).trans (Nat.min_le_left _ _)

/-- No worker has more to do than an even share, rounded up. -/
theorem length_le_of_mem_shares :
    let workers := min (a.workers processors) inputs.length
    ∀ share ∈ a.shares processors inputs,
      share.length ≤ (inputs.length + workers - 1) / workers := by
  intro workers share hs
  have hpos := a.workers_pos processors
  rcases a.shares_cases processors inputs with ⟨hone, hshares⟩ | ⟨hroom, hshares⟩ <;>
    rw [hshares] at hs
  · obtain rfl := List.mem_singleton.1 hs
    rcases Nat.eq_zero_or_pos share.length with hn | hn
    · exact hn ▸ Nat.zero_le _
    · have hworkers : workers = 1 := by omega
      rw [hworkers, Nat.add_sub_cancel, Nat.div_one]
  · exact length_le_of_mem_pieces _ hroom share hs

/-- The results of the shares, one behind the other, are those of the batch. -/
theorem analyzeBatch_eq_flatMap :
    a.analyzeBatch processors inputs = (a.shares processors inputs).flatMap (·.map a.analyze) := by
  unfold analyzeBatch shares
  dsimp only
  split
  · exact (List.flatMap_singleton _ _).symm
  · rfl

theorem analyzeBatch_eq_map : a.analyzeBatch processors inputs = inputs.map a.analyze := by
  rw [analyzeBatch_eq_flatMap, List.flatMap_def, ← List.map_flatten, flatten_shares]

/-- The analyzer with another number of workers. -/
def withParallelism (n : Nat) : Analyzer := { a with config := { a.config with parallelism := n } }

theorem analyze_withParallelism (n : Nat) : (a.withParallelism n).analyze = a.analyze := by
  funext input
  unfold analyze
  simp only [withParallelism, Routine.model_withParallelism]

/-- Under every number of workers a batch has the analyses of its inputs in order.
Another routine in one place, also one that fails or that nobody could read, makes a
difference in that place only. -/
theorem analyzeBatch_withParallelism (n : Nat) :
    (a.withParallelism n).analyzeBatch processors inputs = inputs.map a.analyze ∧
      ∀ i other, (a.withParallelism n).analyzeBatch processors (inputs.set i other) =
        ((a.withParallelism n).analyzeBatch processors inputs).set i (a.analyze other) := by
  have hall (inputs : List RoutineInput) :
      (a.withParallelism n).analyzeBatch processors inputs = inputs.map a.analyze := by
    rw [analyzeBatch_eq_map, analyze_withParallelism]
  refine ⟨hall inputs, fun i other => ?_⟩
  rw [hall, hall, List.map_set]

/-- A worker of a batch: what it has yet to analyse, and its results so far. -/
structure Worker where
  waiting : List RoutineInput
  finished : List RoutineAnalysis

namespace Worker

def ofShare (share : List RoutineInput) : Worker := ⟨share, []⟩

/-- One turn of a worker: it analyses the next of its inputs. -/
def step (w : Worker) : Worker :=
  match w.waiting with
  | [] => w
  | input :: rest => ⟨rest, w.finished ++ [a.analyze input]⟩

/-- The workers after some turns, each of them a turn of the worker in that place. -/
def run (turns : List Nat) (workers : List Worker) : List Worker :=
  turns.foldl (fun workers i => workers.modify i (step a)) workers

theorem iterate_step (n : Nat) (w : Worker) :
    (step a)^[n] w = ⟨w.waiting.drop n, w.finished ++ (w.waiting.take n).map a.analyze⟩ := by
  induction n generalizing w with
  | zero => simp
  | succ n ih =>
    rw [Function.iterate_succ_apply, ih]
    rcases w with ⟨_ | ⟨input, rest⟩, finished⟩ <;> simp [step]

/-- How far a worker has come depends on the number of its own turns only. -/
theorem getElem?_run (turns : List Nat) (workers : List Worker) (i : Nat) :
    (run a turns workers)[i]? = workers[i]?.map (step a)^[turns.count i] := by
  induction turns generalizing workers with
  | nil => simp [run]
  | cons turn turns ih =>
    rw [run, List.foldl_cons, ← run, ih, List.getElem?_modify, List.count_cons]
    by_cases h : turn = i
    · simp [h, Function.iterate_succ]
    · simp [h]

end Worker

/-- In whatever order the workers take their turns: once each of them has had a turn for every input
of its share, their results one behind the other are those of the batch. -/
theorem flatMap_finished_run (turns : List Nat)
    (h : ∀ i share, (a.shares processors inputs)[i]? = some share → share.length ≤ turns.count i) :
    (Worker.run a turns ((a.shares processors inputs).map .ofShare)).flatMap (·.finished) =
      a.analyzeBatch processors inputs := by
  have hfinished :
      (Worker.run a turns ((a.shares processors inputs).map .ofShare)).map (·.finished) =
        (a.shares processors inputs).map (·.map a.analyze) := by
    refine List.ext_getElem? fun i => ?_
    rw [List.getElem?_map, Worker.getElem?_run, List.getElem?_map, List.getElem?_map]
    cases hs : (a.shares processors inputs)[i]? with
    | none => rfl
    | some share =>
      simp [Worker.iterate_step, Worker.ofShare, List.take_of_length_le (h i share hs)]
  rw [analyzeBatch_eq_flatMap, List.flatMap_def, List.flatMap_def, hfinished]

end Analyzer

end ResultShape
