import Mathlib.Algebra.Order.Ring.Nat
import Mathlib.Data.List.Induction
import Mathlib.Order.Bounds.Basic
import Widgetry.Proofs.Frames

/-!
# The instance buffer at any time

A painter may be filled, cleared, made to copy and made to draw in any order. Its capacity, its
buffer, its count of copied instances and its batch change separately. `Painter.Kept` says what
ties them together after every history: the buffer was made as large as the capacity says, the
capacity is the smallest that any batch needed, and what was copied last was written last to the
buffer, unless it was cleared since. All of this is told from the calls that were issued.
-/

namespace Widgetry.Gpu

/-! ## Capacities -/

/-- The capacities that have room for batches of some lengths. -/
def capacities (lengths : List Nat) : Set Nat :=
  {c | (∃ k, c = 64 * 2 ^ k) ∧ ∀ n ∈ lengths, n ≤ c}

theorem capacities_pos {lengths : List Nat} {c : Nat} (h : c ∈ capacities lengths) : 0 < c := by
  obtain ⟨⟨k, hk⟩, _⟩ := h
  rw [hk]
  exact Nat.mul_pos (by decide) (Nat.two_pow_pos k)

/-- Doubling for one more batch keeps the capacity as small as it can be. -/
theorem Turns.isLeast {lengths : List Nat} {current needed k : Nat} (hk : Turns needed current k)
    (hc : IsLeast (capacities lengths) current) :
    IsLeast (capacities (needed :: lengths)) (current * 2 ^ k) := by
  obtain ⟨⟨⟨i, hi⟩, hroom⟩, hleast⟩ := hc
  have hgrow : current ≤ current * 2 ^ k := Nat.le_mul_of_pos_right _ (Nat.two_pow_pos k)
  refine ⟨⟨⟨i + k, by rw [hi, pow_add, Nat.mul_assoc]⟩, ?_⟩, ?_⟩
  · exact List.forall_mem_cons.mpr ⟨hk.1, fun n hn => Nat.le_trans (hroom n hn) hgrow⟩
  · intro c hc
    obtain ⟨⟨j, hj⟩, hneeded⟩ := hc
    obtain ⟨hneeded, hlengths⟩ := List.forall_mem_cons.mp hneeded
    -- A capacity with room for all of them is a doubling of the current one.
    have hij : i ≤ j := by
      have hcurrent : current ≤ c := hleast ⟨⟨j, hj⟩, hlengths⟩
      rw [hi, hj] at hcurrent
      have hpow := Nat.le_of_mul_le_mul_left hcurrent (by decide)
      exact (Nat.pow_le_pow_iff_right (by decide)).mp hpow
    have hdouble : c = current * 2 ^ (j - i) := by
      rw [hj, hi, Nat.mul_assoc, ← pow_add, Nat.add_sub_cancel' hij]
    rw [hdouble] at hneeded ⊢
    exact Nat.mul_le_mul_left _ (Nat.pow_le_pow_right (by decide) (hk.2 hneeded))

/-! ## Calls that stay inside the buffers -/

/-- What a call writes to or binds lies inside its buffer. -/
def Fits (past : List Call) : Call → Prop
  | .writeBuffer buffer offset data => ∃ n, room past buffer = some n ∧ offset + data.length ≤ n
  | .setVertexBuffer _ buffer offset size => ∃ n, room past buffer = some n ∧ offset + size ≤ n
  | _ => True

namespace Painter

variable {p q : Painter} {cs : List Call} {effects : List Effect} {lengths : List Nat}

/-- The buffers of a painter were made as large as they should be, and nothing was ever written or
bound outside of a buffer. -/
structure Housed (p : Painter) (cs : List Call) : Prop where
  corners : room cs p.unitQuad = some unitBytes.length
  instances : room cs p.instances = some (p.capacity * Instance.byteSize)
  apart : p.unitQuad ≠ p.instances
  numbered : p.unitQuad < p.nextBuffer
  fits : Throughout Fits cs

/-- A call that neither makes nor destroys a buffer leaves the others housed. -/
theorem Housed.concat {c : Call} (h : p.Housed cs) (hroom : ∀ b n, c.roomAfter b n = n)
    (hfits : Fits cs c) : p.Housed (cs ++ [c]) := by
  have hsame (b : Nat) : room (cs ++ [c]) b = room cs b := by
    rw [room_append]
    exact hroom b _
  exact ⟨(hsame _).trans h.corners, (hsame _).trans h.instances, h.apart, h.numbered,
    h.fits.concat hfits⟩

theorem Housed.grow (h : p.Housed cs) (capacity : Nat) :
    (p.grow capacity).1.Housed (cs ++ calls (p.grow capacity).2) := by
  have hnext : p.nextBuffer ≠ p.unitQuad := Nat.ne_of_gt h.numbered
  have hcalls : cs ++ calls (p.grow capacity).2 =
      cs ++ [.destroyBuffer p.instances] ++ [createInstances p.nextBuffer capacity] := by
    simp [Painter.grow]
  have hgone : Throughout Fits (cs ++ [.destroyBuffer p.instances]) := h.fits.concat trivial
  rw [hcalls]
  refine ⟨?_, ?_, hnext.symm, Nat.lt_succ_of_lt h.numbered, hgone.concat trivial⟩
  · show room _ p.unitQuad = _
    rw [room_append, room_append, h.corners]
    simp [Call.roomAfter, createInstances, hnext, h.apart.symm]
  · show room _ p.nextBuffer = _
    rw [room_append]
    simp [Call.roomAfter, createInstances, Painter.grow]

theorem Housed.upload (h : p.Housed cs) (hroom : p.batch.length ≤ p.capacity) :
    p.upload.1.Housed (cs ++ calls p.upload.2) := by
  have hwrite := h.concat (c := .writeBuffer p.instances 0 p.batch.bytes) (fun _ _ => rfl)
    ⟨_, h.instances, by
      rw [Nat.zero_add, Batch.bytes_length]
      exact Nat.mul_le_mul_right _ hroom⟩
  exact ⟨hwrite.corners, hwrite.instances, hwrite.apart, hwrite.numbered, hwrite.fits⟩

/-- What is bound for drawing lies inside the buffers. -/
theorem Housed.render (h : p.Housed cs) (hroom : p.uploaded.toNat ≤ p.capacity) :
    p.Housed (cs ++ calls p.render) := by
  by_cases hz : p.uploaded.toNat = 0
  · rw [render_nil hz, List.append_nil]
    exact h
  · have h1 := h.concat (c := .setPipeline) (fun _ _ => rfl) trivial
    have h2 := h1.concat (c := .setVertexBuffer 0 p.unitQuad 0 unitBytes.length) (fun _ _ => rfl)
      ⟨_, h1.corners, by rw [Nat.zero_add]⟩
    have h3 := h2.concat
      (c := .setVertexBuffer 1 p.instances 0 (p.uploaded.toNat * Instance.byteSize))
      (fun _ _ => rfl) ⟨_, h2.instances, by
        rw [Nat.zero_add]
        exact Nat.mul_le_mul_right _ hroom⟩
    have h4 := h3.concat (c := .draw 0 6 0 p.uploaded.toNat) (fun _ _ => rfl) trivial
    rw [render_calls hz]
    simpa using h4

/-- Making room for a batch doubles the capacity as often as it takes. -/
theorem reserve_turns (h : p.reserve = some (q, effects)) (hpos : 0 < p.capacity)
    (hsmall : p.batch.length < Nat.pow 2 32) :
    ∃ k, Turns p.batch.length p.capacity k ∧ q.capacity = p.capacity * 2 ^ k := by
  rcases reserve_inv h with ⟨hroom, hq, _⟩ | ⟨capacity, hroom, hgrown, hgrow⟩
  · rw [hq]
    exact ⟨0, ⟨by simpa using hroom, fun _ _ => Nat.zero_le _⟩, by rw [pow_zero, Nat.mul_one]⟩
  · have hlimit : Nat.pow 2 32 ≤ wordLimit := by decide
    obtain ⟨k, hk, hcapacity⟩ := grownCapacity_some hgrown (by omega) (by omega)
    rw [Nat.max_eq_left hpos] at hk hcapacity
    cases hgrow
    exact ⟨k, hk, hcapacity⟩

theorem prepare_turns (h : p.prepare = some (q, effects)) (hpos : 0 < p.capacity)
    (hsmall : p.batch.length < Nat.pow 2 32) :
    ∃ k, Turns p.batch.length p.capacity k ∧ q.capacity = p.capacity * 2 ^ k := by
  rcases prepare_inv h with ⟨hb, hq, _⟩ | ⟨roomy, grown, _, hreserve, hq, _⟩
  · rw [hq, hb]
    exact ⟨0, ⟨Nat.zero_le _, fun _ _ => Nat.zero_le _⟩, by rw [pow_zero, Nat.mul_one]⟩
  · obtain ⟨k, hk, hcapacity⟩ := reserve_turns hreserve hpos hsmall
    rw [hq]
    exact ⟨k, hk, hcapacity⟩

/-- The instances that were copied are those of a batch, and they were written to the buffer last,
from its start. -/
structure Loaded (p : Painter) (cs : List Call) (batch : Batch) : Prop where
  count : p.uploaded.toNat = batch.length
  room : batch.length ≤ p.capacity
  written : batch ≠ [] → lastWrite cs p.instances = some (0, batch.bytes)

theorem loaded_nil (h : p.uploaded = 0) : p.Loaded cs [] :=
  ⟨by rw [h]; rfl, Nat.zero_le _, fun hne => absurd rfl hne⟩

/-- Copying houses the painter anew and loads its batch. -/
theorem Housed.prepare (hp : p.Housed cs) (h : p.prepare = some (q, effects))
    (hpos : 0 < p.capacity) (hsmall : p.batch.length < Nat.pow 2 32) :
    q.Housed (cs ++ calls effects) ∧ q.Loaded (cs ++ calls effects) p.batch := by
  have hcount := prepare_uploaded h hsmall
  obtain ⟨k, hk, hcapacity⟩ := prepare_turns h hpos hsmall
  have hroom : p.batch.length ≤ q.capacity := by
    rw [hcapacity]
    exact hk.1
  rcases prepare_inv h with ⟨hb, hq, heffects⟩ | ⟨roomy, grown, hb, hreserve, hq, heffects⟩
  · rw [heffects, calls_nil, List.append_nil]
    refine ⟨?_, hcount, hroom, fun hne => absurd hb hne⟩
    rw [hq]
    exact ⟨hp.corners, hp.instances, hp.apart, hp.numbered, hp.fits⟩
  · have hbatch := (reserve_keeps hreserve).1
    have hhoused : roomy.Housed (cs ++ calls grown) := reserve_preserves hp hp.grow hreserve
    rw [hq, ← hbatch] at hroom
    rw [heffects, calls_append, ← List.append_assoc]
    refine ⟨hq ▸ hhoused.upload hroom, hcount, by rw [← hbatch, hq]; exact hroom, ?_⟩
    intro _
    rw [hq, lastWrite_append, ← hbatch]
    exact if_pos rfl

/-! ## Histories -/

/-- What can be asked of a painter. -/
inductive Op where
  | fill (quads : List Quad)
  | clear
  | prepare
  | render

def step (p : Painter) : Op → Option (Painter × List Effect)
  | .fill quads => some (p.fill quads, [])
  | .clear => some (p.clear, [])
  | .prepare => p.prepare
  | .render => some (p, p.render)

/-- A painter after one more operation, with all the calls so far. -/
def proceed (past : Painter × List Call) (op : Op) : Option (Painter × List Call) :=
  (past.1.step op).map fun next => (next.1, past.2 ++ calls next.2)

/-- A new painter after some operations, with the calls since it was made; there is none if one of
them stops the program. -/
def history (format : String) (ops : List Op) : Option (Painter × List Call) :=
  ops.foldlM proceed ((init format).1, calls (init format).2)

/-- What is queued, what was copied, and how many quads there were to copy each time, the last time
first. It is told from the operations alone. -/
structure Sheet where
  queued : List Quad := []
  copied : List Quad := []
  lengths : List Nat := []

def Sheet.note (s : Sheet) : Op → Sheet
  | .fill quads => { s with queued := s.queued ++ quads }
  | .clear => { s with queued := [], copied := [] }
  | .prepare => { s with copied := s.queued, lengths := s.queued.length :: s.lengths }
  | .render => s

def sheet (ops : List Op) : Sheet := ops.foldl Sheet.note {}

/-- What a sheet tells is true of a painter after its calls: the batch is what is queued, what was
copied was written, and the capacity is the smallest with room for every batch so far. -/
structure Kept (s : Sheet) (p : Painter) (cs : List Call) : Prop where
  housed : p.Housed cs
  batch : p.batch = s.queued.map Instance.ofQuad
  loaded : p.Loaded cs (s.copied.map Instance.ofQuad)
  capacity : IsLeast (capacities s.lengths) p.capacity

variable {s : Sheet}

theorem Kept.length (h : Kept s p cs) : p.batch.length = s.queued.length := by
  rw [h.batch, List.length_map]

theorem Kept.prepare (h : Kept s p cs) (hp : p.prepare = some (q, effects))
    (hsmall : s.queued.length < Nat.pow 2 32) :
    Kept (s.note .prepare) q (cs ++ calls effects) := by
  rw [← h.length] at hsmall
  have hpos := capacities_pos h.capacity.1
  obtain ⟨hhoused, hloaded⟩ := h.housed.prepare hp hpos hsmall
  obtain ⟨k, hk, hcapacity⟩ := prepare_turns hp hpos hsmall
  have hleast := hk.isLeast h.capacity
  rw [h.batch] at hloaded
  rw [h.length, ← hcapacity] at hleast
  exact ⟨hhoused, (prepare_keeps hp).1.trans h.batch, hloaded, hleast⟩

theorem lastWrite_render (p : Painter) (cs : List Call) (buffer : Nat) :
    lastWrite (cs ++ calls p.render) buffer = lastWrite cs buffer := by
  rw [lastWrite_append]
  by_cases hz : p.uploaded.toNat = 0
  · rw [render_nil hz]
    rfl
  · rw [render_calls hz]
    rfl

/-- Each operation does what it should, and none stops the program. -/
theorem Kept.step (h : Kept s p cs) {op : Op}
    (hsmall : op = .prepare → s.queued.length < Nat.pow 2 32) :
    ∃ q effects, p.step op = some (q, effects) ∧ Kept (s.note op) q (cs ++ calls effects) := by
  have hkept := h
  obtain ⟨⟨hcorners, hinstances, hapart, hnumbered, hfits⟩, hbatch, hloaded, hcapacity⟩ := h
  cases op with
  | fill quads =>
    have hfill : (p.fill quads).batch = (s.queued ++ quads).map Instance.ofQuad := by
      rw [fill, Batch.fill, hbatch, List.map_append]
    refine ⟨_, _, rfl, ?_⟩
    rw [calls_nil, List.append_nil]
    exact ⟨⟨hcorners, hinstances, hapart, hnumbered, hfits⟩, hfill,
      ⟨hloaded.count, hloaded.room, hloaded.written⟩, hcapacity⟩
  | clear =>
    refine ⟨_, _, rfl, ?_⟩
    rw [calls_nil, List.append_nil]
    exact ⟨⟨hcorners, hinstances, hapart, hnumbered, hfits⟩, rfl, loaded_nil rfl, hcapacity⟩
  | prepare =>
    obtain ⟨q, effects, hp⟩ := prepare_isSome (p := p) (by rw [hkept.length]; exact hsmall rfl)
    exact ⟨q, effects, hp, hkept.prepare hp (hsmall rfl)⟩
  | render =>
    refine ⟨p, p.render, rfl, hkept.housed.render ?_, hbatch, ⟨hloaded.count, hloaded.room, ?_⟩,
      hcapacity⟩
    · rw [hloaded.count]
      exact hloaded.room
    · rw [lastWrite_render]
      exact hloaded.written

theorem Kept.render_nil (h : Kept s p cs) (hs : s.copied = []) : calls p.render = [] := by
  refine Painter.render_nil ?_
  rw [h.loaded.count, hs]
  rfl

/-- The calls of drawing up to the draw: the corners and as many instances as were copied are
bound. -/
def bindings (p : Painter) : List Call :=
  [.setPipeline, .setVertexBuffer 0 p.unitQuad 0 unitBytes.length,
    .setVertexBuffer 1 p.instances 0 (p.uploaded.toNat * Instance.byteSize)]

/-- What was copied is drawn, from the part of the buffer that it was written to. -/
theorem Loaded.render {batch : Batch} (h : p.Loaded cs batch) (hne : batch ≠ []) :
    calls p.render = p.bindings ++ [.draw 0 6 0 p.uploaded.toNat] ∧
      Supplies (cs ++ p.bindings) batch.bytes := by
  have hpos : p.uploaded.toNat ≠ 0 := by
    rw [h.count]
    exact fun hzero => hne (List.length_eq_zero_iff.mp hzero)
  refine ⟨render_calls hpos, p.instances, ?_, ?_⟩
  · rw [bound_append, Batch.bytes_length, ← h.count]
    rfl
  · rw [lastWrite_append]
    exact h.written hne

end Painter

end Widgetry.Gpu
