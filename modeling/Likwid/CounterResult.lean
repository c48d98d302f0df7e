import Likwid.CounterMap

/-!
# From counter records to results

`calculateResult` of `perfmon.c` and `calculateMarkerResult` of
`libperfctr.c`. The two texts are separate, and both are kept.
-/

namespace Likwid

variable (M : Machine)

/-- `(double)` of an unsigned 64-bit value. -/
def toDouble (w : Word) : ℚ := M.fl w.toNat

/-- `calculateResult` on the record of one thread, with the table row of the
event's counter: the result, and the record, whose overflow count it lowers. -/
def calculateResult (index : RegisterIndex) (type : RegisterType) (counter : PerfmonCounter) :
    ℚ × PerfmonCounter :=
  let max := perfmonGetMaxCounterValue M type
  let st : ℚ × PerfmonCounter :=
    if counter.overflows = 0 then (toDouble M (counter.counterData - counter.startData), counter)
    else if 0 < counter.overflows then
      (M.fl (0 + toDouble M ((max - counter.startData) + counter.counterData)),
        { counter with overflows := counter.overflows - 1 })
    else (0, counter)
  let result := M.fl (st.1 + toDouble M (BitVec.ofInt 64 st.2.overflows * max))
  if type = .power then (M.fl (result * M.energyUnit (getCounterTypeOffset M index)), st.2)
  else if type = .thermal then (toDouble M counter.counterData, st.2)
  else (result, st.2)

def calculateMarkerResult (index : RegisterIndex) (type : RegisterType) (start stop : Word)
    (overflows : Int) : ℚ :=
  let max := perfmonGetMaxCounterValue M type
  let st : ℚ × Int :=
    if overflows = 0 then (toDouble M (stop - start), overflows)
    else if 0 < overflows then
      (M.fl (0 + toDouble M ((max - start) + stop)), overflows - 1)
    else (0, overflows)
  let result := M.fl (st.1 + toDouble M (BitVec.ofInt 64 st.2 * max))
  if type = .power then M.fl (result * M.energyUnit (getCounterTypeOffset M index))
  else if type = .thermal then toDouble M stop
  else result

end Likwid
