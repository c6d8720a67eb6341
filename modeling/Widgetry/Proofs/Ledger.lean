import Widgetry.Gpu.Display

/-!
# What the calls tell

When a graphics device does what it is asked to is its own affair; a write may well wait until work
is submitted. This much can be told from the calls alone, in the order in which they were issued:
how large a buffer was made and whether it is still there (`room`), what was written to it last
(`lastWrite`), and what is bound to a slot in the current pass (`bound`). `Throughout` says of each
call that it suits the calls before it.
-/

namespace Widgetry.Gpu

/-- The calls among the effects. -/
def calls (effects : List Effect) : List Call := effects.filterMap Effect.call?

@[simp] theorem calls_nil : calls [] = [] := rfl

@[simp] theorem calls_call (c : Call) (rest : List Effect) :
    calls (.call c :: rest) = c :: calls rest := rfl

@[simp] theorem calls_notice (n : Notice) (rest : List Effect) :
    calls (.notice n :: rest) = calls rest := rfl

@[simp] theorem calls_append (a b : List Effect) : calls (a ++ b) = calls a ++ calls b :=
  List.filterMap_append

/-! ## Buffers and slots -/

namespace Call

/-- The size of a buffer after a call; one that is destroyed has none. -/
def roomAfter (buffer : Nat) (room : Option Nat) : Call → Option Nat
  | .createBuffer b _ size _ _ => if b = buffer then some size else room
  | .destroyBuffer b => if b = buffer then none else room
  | _ => room

/-- What was written last to a buffer after a call; nothing was, to one that is new. -/
def writeAfter (buffer : Nat) (last : Option (Nat × List UInt8)) : Call → Option (Nat × List UInt8)
  | .createBuffer b _ _ _ _ => if b = buffer then none else last
  | .writeBuffer b offset data => if b = buffer then some (offset, data) else last
  | _ => last

end Call

/-- A part of a buffer. -/
structure Slice where
  buffer : Nat
  offset : Nat
  size : Nat

/-- What is bound to a slot after a call. A pass starts with nothing bound. -/
def Call.boundAfter (slot : Nat) (bound : Option Slice) : Call → Option Slice
  | .beginPass .. => none
  | .setVertexBuffer s buffer offset size => if s = slot then some ⟨buffer, offset, size⟩ else bound
  | _ => bound

/-- The size that a buffer was made with, while it is there. -/
def room (cs : List Call) (buffer : Nat) : Option Nat := cs.foldl (Call.roomAfter buffer) none

/-- The offset and the bytes that were written last to a buffer. -/
def lastWrite (cs : List Call) (buffer : Nat) : Option (Nat × List UInt8) :=
  cs.foldl (Call.writeAfter buffer) none

/-- What is bound to a slot in the current pass. -/
def bound (cs : List Call) (slot : Nat) : Option Slice := cs.foldl (Call.boundAfter slot) none

theorem room_append (a b : List Call) (buffer : Nat) :
    room (a ++ b) buffer = b.foldl (Call.roomAfter buffer) (room a buffer) :=
  List.foldl_append

theorem lastWrite_append (a b : List Call) (buffer : Nat) :
    lastWrite (a ++ b) buffer = b.foldl (Call.writeAfter buffer) (lastWrite a buffer) :=
  List.foldl_append

theorem bound_append (a b : List Call) (slot : Nat) :
    bound (a ++ b) slot = b.foldl (Call.boundAfter slot) (bound a slot) :=
  List.foldl_append

/-- The slot that instances are drawn from. -/
def instanceSlot : Nat := 1

/-- What is bound for instances is what was written last to its buffer, from its start and all of
it. -/
def Supplies (cs : List Call) (data : List UInt8) : Prop :=
  ∃ buffer, bound cs instanceSlot = some ⟨buffer, 0, data.length⟩ ∧
    lastWrite cs buffer = some (0, data)

/-! ## Calls that suit those before them -/

/-- Each call suits those before it. -/
inductive Throughout (P : List Call → Call → Prop) : List Call → Prop where
  | nil : Throughout P []
  | concat {cs : List Call} {c : Call} : Throughout P cs → P cs c → Throughout P (cs ++ [c])

theorem Throughout.suits {P : List Call → Call → Prop} {cs past rest : List Call} {c : Call}
    (h : Throughout P cs) (hcs : cs = past ++ c :: rest) : P past c := by
  induction h generalizing rest with
  | nil => simp at hcs
  | @concat cs x _ hx ih =>
    rcases List.eq_nil_or_concat rest with hrest | ⟨rest', last, hrest⟩
    · rw [hrest] at hcs
      obtain ⟨hpast, hc⟩ := List.append_inj' hcs rfl
      obtain rfl := List.head_eq_of_cons_eq hc
      rw [← hpast]
      exact hx
    · rw [hrest, List.concat_eq_append, ← List.cons_append, ← List.append_assoc] at hcs
      exact ih (List.append_inj' hcs rfl).1

/-! ## Bytes -/

theorem Instance.bytes_length (i : Instance) : i.bytes.length = Instance.byteSize := rfl

theorem Batch.bytes_length (b : Batch) : b.bytes.length = b.length * Instance.byteSize := by
  induction b with
  | nil => rfl
  | cons i rest ih =>
    have hcons : Batch.bytes (i :: rest) = i.bytes ++ Batch.bytes rest := rfl
    rw [hcons, List.length_append, ih, Instance.bytes_length, List.length_cons, Nat.succ_mul,
      Nat.add_comm]

/-- The words that bytes stand for, the lowest byte of each first. -/
def words : List UInt8 → List Nat
  | a :: b :: c :: d :: rest =>
    (a.toNat + 256 * (b.toNat + 256 * (c.toNat + 256 * d.toNat))) :: words rest
  | _ => []

theorem words_singleBytes (x : Float32) (rest : List UInt8) :
    words (singleBytes x ++ rest) = x.toBits.toNat :: words rest := by
  have hlt := x.toBits.toNat_lt
  simp only [singleBytes, List.cons_append, List.nil_append, words]
  refine congrArg (· :: words rest) ?_
  simp only [UInt32.toNat_toUInt8, UInt32.toNat_shiftRight, Nat.shiftRight_eq_div_pow,
    UInt32.reduceToNat, Nat.reduceMod, Nat.reducePow]
  omega

theorem words_flatMap (numbers : List Float32) :
    words (numbers.flatMap singleBytes) = numbers.map (·.toBits.toNat) := by
  induction numbers with
  | nil => rfl
  | cons x rest ih => rw [List.flatMap_cons, words_singleBytes, ih, List.map_cons]

/-- An instance is eight words: the top left corner of its quad, the way from there to the bottom
right corner, and the color. -/
theorem words_ofQuad (q : Quad) :
    words (Instance.ofQuad q).bytes =
      [q.topLeft.x, q.topLeft.y, q.bottomRight.x - q.topLeft.x, q.bottomRight.y - q.topLeft.y,
        q.color.r, q.color.g, q.color.b, q.color.a].map (·.toBits.toNat) :=
  words_flatMap (Instance.ofQuad q).components

end Widgetry.Gpu
