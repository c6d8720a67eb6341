import Widgetry.Json.Codec

/-!
# Readers on written text

Written text stands in the middle of other text: blanks may come before it, and after it comes
what ends a value. `Reads` says what a reader makes of a piece of text wherever it stands, success
and failure alike: `Reads r text (some a)` if it gives `a` and leaves what follows, `Reads r text
none` if it fails. Readers made of readers then read what the parts say, in the option monad.
-/

namespace Widgetry.Json

/-- Nothing but space. -/
def Blank (s : List Char) : Prop := ∀ c ∈ s, Reader.isSpace c = true

/-- Whether a character can stand right after a value. -/
def endsValue (c : Char) : Bool := Reader.isSpace c || c = ',' || c = ']' || c = '\x7d'

/-- The text ends, or goes on with what ends a value. -/
def Ended (s : List Char) : Prop := ∀ c, s.head? = some c → endsValue c = true

theorem blank_nil : Blank [] := by
  intro c hc
  cases hc

theorem blank_space : Blank [' '] := by
  intro c hc
  rw [List.mem_singleton.mp hc]
  rfl

theorem blank_newline (level : Nat) : Blank (Document.newline level) := by
  intro c hc
  rcases List.mem_cons.mp hc with rfl | hc
  · rfl
  · rw [List.eq_of_mem_replicate hc]
    rfl

theorem ended_nil : Ended [] := by
  intro c hc
  cases hc

theorem ended_cons {c : Char} (h : endsValue c = true) (s : List Char) : Ended (c :: s) := by
  intro d hd
  cases hd
  exact h

/-- What a reader answers: a value, with the given text left, or a failure. -/
def Yields {α : Type} (o : Option α) (rest : List Char) : EStateM.Result Fault (List Char) α → Prop
  | .ok a left => o = some a ∧ left = rest
  | .error _ _ => o = none

/-- What a reader makes of a piece of text, wherever it stands. -/
def Reads {α : Type} (r : Reader α) (text : List Char) (o : Option α) : Prop :=
  ∀ rest, Ended rest → Yields o rest (r (text ++ rest))

section Yields

variable {α β : Type} {r : Reader α} {o : Option α} {a : α} {s rest : List Char}

theorem yields_some : Yields (some a) rest (r s) ↔ r s = .ok a rest := by
  cases h : r s with
  | ok b left =>
    simp only [Yields, Option.some.injEq, EStateM.Result.ok.injEq]
    constructor
    · rintro ⟨rfl, rfl⟩
      exact ⟨rfl, rfl⟩
    · rintro ⟨rfl, rfl⟩
      exact ⟨rfl, rfl⟩
  | error f left => simp [Yields]

theorem yields_none : Yields none rest (r s) ↔ ∃ f left, r s = .error f left := by
  cases h : r s <;> simp [Yields]

theorem Yields.bind {k : α → Reader β} {q : α → Option β} {left : List Char}
    (hr : Yields o left (r s)) (hk : ∀ a, o = some a → Yields (q a) rest (k a left)) :
    Yields (o.bind q) rest ((r >>= k) s) := by
  cases o with
  | some a =>
    have heq : (r >>= k) s = k a left := by
      show EStateM.bind r k s = _
      rw [EStateM.bind, yields_some.mp hr]
    rw [Option.bind_some, heq]
    exact hk a rfl
  | none =>
    obtain ⟨f, stop, hf⟩ := yields_none.mp hr
    refine yields_none.mpr ⟨f, stop, ?_⟩
    show EStateM.bind r k s = _
    rw [EStateM.bind, hf]

theorem Yields.bind_none {left : List Char} (hr : Yields none left (r s)) (k : α → Reader β) :
    Yields none rest ((r >>= k) s) :=
  hr.bind (q := fun _ => none) fun a ha => by cases ha

theorem Yields.map (hr : Yields o rest (r s)) (g : α → β) :
    Yields (o.map g) rest ((do return g (← r) : Reader β) s) := by
  have hbind : o.map g = o.bind fun a => some (g a) := by cases o <;> rfl
  rw [hbind]
  exact hr.bind fun a _ => ⟨rfl, rfl⟩

/-- A reader that goes on with what it makes of a value, said in terms of that value. -/
theorem Yields.bind_map {γ : Type} {o : Option γ} {g : γ → α} {k : α → Reader β}
    {q : γ → Option β} {left : List Char} (hr : Yields (o.map g) left (r s))
    (hk : ∀ v, o = some v → Yields (q v) rest (k (g v) left)) :
    Yields (o.bind q) rest ((r >>= k) s) := by
  cases o with
  | some v => exact hr.bind (q := fun _ => q v) fun a ha => by cases ha; exact hk v rfl
  | none => exact hr.bind (q := fun _ => none) fun a ha => by cases ha

theorem bind_ok {k : α → Reader β} {left : List Char} (h : r s = .ok a left) :
    (r >>= k) s = k a left := by
  show EStateM.bind r k s = _
  rw [EStateM.bind, h]

theorem bind_congr_left {r' : Reader α} {s' : List Char} (h : r s = r' s') (k : α → Reader β) :
    (r >>= k) s = (r' >>= k) s' := by
  show EStateM.bind r k s = EStateM.bind r' k s'
  rw [EStateM.bind, EStateM.bind, h]

theorem Yields.settled (h : Yields o rest (r s)) : Yields o rest (Reader.settled r s) := by
  cases o with
  | some a =>
    rw [yields_some] at h ⊢
    rw [Reader.settled, h]
  | none =>
    obtain ⟨f, left, hf⟩ := yields_none.mp h
    rw [yields_none, Reader.settled, hf]
    cases f with
    | mk problem place =>
      cases place with
      | none => exact ⟨_, _, rfl⟩
      | some p => exact ⟨_, _, rfl⟩

/-- After a failure the closing mark makes no difference. -/
theorem Yields.closedBy_none {left : List Char} (h : Yields none left (r s)) (close : Reader Unit) :
    Yields none rest (Reader.closedBy r close s) := by
  obtain ⟨f, stop, hf⟩ := yields_none.mp h
  rw [yields_none, Reader.closedBy, hf]
  dsimp only
  cases close stop with
  | ok _ after => exact ⟨f, after, rfl⟩
  | error _ after => exact ⟨f, after, rfl⟩

theorem Yields.closedBy {close : Reader Unit} {left : List Char} (h : Yields o left (r s))
    (hclose : close left = .ok () rest) : Yields o rest (Reader.closedBy r close s) := by
  cases o with
  | some a =>
    rw [yields_some] at h ⊢
    rw [Reader.closedBy, h]
    simp only [hclose]
  | none => exact h.closedBy_none close

theorem Yields.closedBy_refused {close : Reader Unit} {left after : List Char}
    (h : Yields o left (r s)) (hclose : Yields none after (close left)) :
    Yields none rest (Reader.closedBy r close s) := by
  cases o with
  | none => exact h.closedBy_none close
  | some a =>
    obtain ⟨f, stop, hf⟩ := yields_none.mp hclose
    rw [yields_none, Reader.closedBy, yields_some.mp h]
    simp only [hf]
    exact ⟨_, _, rfl⟩

end Yields

namespace Reader

/-! ## Marks -/

theorem peek_append {pre : List Char} (hpre : Blank pre) (s : List Char) :
    peek (pre ++ s) = peek s := by
  rw [peek, peek, List.dropWhile_append_of_pos hpre]

theorem peek_blank {pre : List Char} (hpre : Blank pre) {c : Char} (hc : isSpace c = false)
    (s : List Char) : peek (pre ++ c :: s) = .ok (some c) (c :: s) := by
  have hdrop : (c :: s).dropWhile isSpace = c :: s :=
    List.dropWhile_cons_of_neg (by simp [hc])
  rw [peek_append hpre, peek, hdrop]
  rfl

/-- Looking past blanks at a character and going on by what it is. -/
theorem peek_bind {β : Type} {pre : List Char} (hpre : Blank pre) {c : Char}
    (hc : isSpace c = false) (s : List Char) (k : Option Char → Reader β) :
    (peek >>= k) (pre ++ c :: s) = k (some c) (c :: s) :=
  bind_ok (peek_blank hpre hc s)

theorem peek_cons {β : Type} {c : Char} (hc : isSpace c = false) (s : List Char)
    (k : Option Char → Reader β) : (peek >>= k) (c :: s) = k (some c) (c :: s) :=
  peek_bind blank_nil hc s k

theorem finish_blank {pre : List Char} (hpre : Blank pre) : finish pre = .ok () [] := by
  have hpeek : peek pre = .ok none [] := by
    have hskip := peek_append hpre []
    rw [List.append_nil] at hskip
    exact hskip
  exact bind_ok hpeek

theorem advance_bind {β : Type} (c : Char) (s : List Char) (k : Unit → Reader β) :
    (advance >>= k) (c :: s) = k () s := rfl

theorem closeList_blank {pre : List Char} (hpre : Blank pre) (s : List Char) :
    closeList (pre ++ ']' :: s) = .ok () s := by
  rw [closeList, peek_bind hpre rfl]
  rfl

theorem closeObject_blank {pre : List Char} (hpre : Blank pre) (s : List Char) :
    closeObject (pre ++ '\x7d' :: s) = .ok () s := by
  rw [closeObject, peek_bind hpre rfl]
  rfl

end Reader

end Widgetry.Json
