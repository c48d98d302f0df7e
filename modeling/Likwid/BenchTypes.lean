import Mathlib.Data.List.Basic
import Mathlib.Algebra.Group.Int.Defs
import Mathlib.Algebra.GroupWithZero.Nat

/-!
# The types of the benchmark (`test_types.h`, `strUtil.h`, `threads_types.h`)
-/

namespace Likwid

inductive DataType where
  | single
  | double
deriving DecidableEq, Repr

/-- `sizeof` of an element -/
def DataType.bytes : DataType → ℕ
  | .single => 4
  | .double => 8

structure TestCase where
  streams : ℕ
  type : DataType
  stride : ℕ
  stride_pos : 0 < stride

/-- A field that was never written is `none`; the pointer is the allocator's. -/
structure Stream where
  domain : Option (List Char)
  offset : Option Int
  ptr : Int
deriving DecidableEq, Repr

/-- A workgroup; an entry of `processorIds` that was never written is `none`. -/
structure Workgroup where
  numberOfThreads : ℕ
  processorIds : List (Option Int)
  size : ℕ
  streams : List Stream
deriving DecidableEq, Repr

structure ThreadUserData where
  size : ℕ
  iter : ℕ
  minRuntime : ℕ
  test : TestCase
  cycles : ℕ
  numberOfThreads : ℕ
  processors : List (Option Int)
  streams : List Int

structure ThreadData where
  globalNumberOfThreads : Int
  numberOfThreads : Int
  globalThreadId : ℕ
  threadId : ℕ
  numberOfGroups : Int
  groupId : ℕ
  cycles : ℕ
  data : ThreadUserData

structure ThreadGroup where
  numberOfThreads : Int
  threadIds : List ℕ
deriving DecidableEq, Repr

/-- What becomes of a value that is stored in an `int`. -/
def toInt32 (z : Int) : Int := z.bmod (2 ^ 32)

/-- What becomes of a value that is stored in a `uint64_t`. -/
def toUInt64 (z : Int) : ℕ := (z % 2 ^ 64).toNat

end Likwid
