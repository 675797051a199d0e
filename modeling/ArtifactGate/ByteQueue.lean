/-!
Bytes in the order in which they came. `toList` is their meaning; they are kept newest first and counted,
so that adding one costs the same however many there are.
-/
namespace ArtifactGate

structure ByteQueue where
  newestFirst : List UInt8 := []
  size : Nat := 0
  size_eq : size = newestFirst.length := by rfl
  deriving DecidableEq, Repr

namespace ByteQueue

def empty : ByteQueue := {}

instance : Inhabited ByteQueue := ⟨empty⟩

def toList (queue : ByteQueue) : List UInt8 :=
  queue.newestFirst.reverse

def push (queue : ByteQueue) (byte : UInt8) : ByteQueue where
  newestFirst := byte :: queue.newestFirst
  size := queue.size + 1
  size_eq := by rw [queue.size_eq, List.length_cons]

def append (first second : ByteQueue) : ByteQueue where
  newestFirst := second.newestFirst ++ first.newestFirst
  size := second.size + first.size
  size_eq := by rw [first.size_eq, second.size_eq, List.length_append]

theorem toList_empty : empty.toList = [] := rfl

theorem toList_push (queue : ByteQueue) (byte : UInt8) :
    (queue.push byte).toList = queue.toList ++ [byte] :=
  List.reverse_cons

theorem toList_append (first second : ByteQueue) :
    (first.append second).toList = first.toList ++ second.toList :=
  List.reverse_append

theorem length_toList (queue : ByteQueue) : queue.toList.length = queue.size := by
  rw [toList, List.length_reverse, queue.size_eq]

end ByteQueue

end ArtifactGate
