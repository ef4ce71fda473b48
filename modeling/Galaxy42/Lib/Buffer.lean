import Mathlib.Data.List.TakeDrop

/-!
# Buffers that are filled in pieces

A buffer that is used again keeps what was in it until that is overwritten. `overwrite` puts one piece
into it, from an offset on, and leaves the rest as it was, so that what is behind the last piece may be
left over from an earlier use. Up to the end of the last piece there are only the pieces in it
(`take_overwrite`), which is what a reader relies on who knows how much was put there.

`resize` is the other thing that is done to a buffer: it is cut off, or made longer by copies of one
element, as `std::vector::resize` does it. Both are about lists of any elements; the octets of a frame that
arrives in pieces, the slots of a container and a message in shared memory are three uses of them.
-/

namespace Toolkit

namespace Buffer

variable {α : Type} {buf chunk : List α} {offset : ℕ}

/-- The buffer after a piece was put into it, from an offset on. A piece that goes beyond the end makes the
buffer longer. Its users show that it does not. -/
def overwrite (buf : List α) (offset : ℕ) (chunk : List α) : List α :=
  buf.take offset ++ chunk ++ buf.drop (offset + chunk.length)

/-- The buffer with another length: it is cut off, or extended by an element. This is what `resize` of a
container does, with the element that is given for the new places. -/
def resize (buf : List α) (n : ℕ) (a : α) : List α :=
  buf.take n ++ List.replicate (n - buf.length) a

@[simp] theorem length_resize (buf : List α) (n : ℕ) (a : α) : (resize buf n a).length = n := by
  rw [resize, List.length_append, List.length_take, List.length_replicate]
  omega

theorem length_overwrite (h : offset + chunk.length ≤ buf.length) :
    (overwrite buf offset chunk).length = buf.length := by
  rw [overwrite, List.length_append, List.length_append, List.length_take, List.length_drop]
  omega

/-- What is in the buffer up to the end of the piece. -/
theorem take_overwrite (h : offset + chunk.length ≤ buf.length) :
    (overwrite buf offset chunk).take (offset + chunk.length) = buf.take offset ++ chunk := by
  have hlength : (buf.take offset ++ chunk).length = offset + chunk.length := by
    rw [List.length_append, List.length_take]
    omega
  rw [overwrite, ← hlength, List.take_left]

end Buffer

end Toolkit
