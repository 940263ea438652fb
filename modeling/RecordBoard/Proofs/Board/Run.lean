import RecordBoard.Board.Answer

/-!
# Runs of requests

A run threads the table through the answers one by one.  The equations here are what every
induction over a run opens it with; nothing else unfolds `Board.run`.

## Main results

* `run_cons` — a run, cut at its front.
* `length_run` — every request is answered.
* `run_induction` — what each answer preserves holds of the table that a run leaves.
-/

namespace RecordBoard.Board

open Store (Backend Table)
open Http (Request Answer)

variable (board : Board) (b : Backend)

@[simp] theorem run_nil (t : Table) : board.run b t [] = (t, []) := rfl

theorem run_cons (t : Table) (r : Request) (rest : List Request) :
    board.run b t (r :: rest) =
      ((board.run b (board.answer b t r).1 rest).1,
        (board.answer b t r).2 :: (board.run b (board.answer b t r).1 rest).2) := rfl

@[simp] theorem length_run (t : Table) (rs : List Request) :
    (board.run b t rs).2.length = rs.length := by
  induction rs generalizing t with
  | nil => rfl
  | cons r rest ih => simp only [run_cons, List.length_cons, ih]

/-- What holds at first and is preserved by every answer holds of the table that a run leaves. -/
theorem run_induction {P : Table → Prop} {t : Table} (rs : List Request) (start : P t)
    (step : ∀ (t : Table), ∀ r ∈ rs, P t → P (board.answer b t r).1) : P (board.run b t rs).1 := by
  induction rs generalizing t with
  | nil => exact start
  | cons r rest ih =>
      rw [run_cons]
      refine ih (step t r List.mem_cons_self start) ?_
      intro t' r' hr'
      exact step t' r' (List.mem_cons_of_mem r hr')

end RecordBoard.Board
