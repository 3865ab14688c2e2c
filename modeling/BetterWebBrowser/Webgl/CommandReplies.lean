import BetterWebBrowser.Webgl.CommandCalls

/-!
# Replies that are kept

A poll that is repeated in the same task is answered from the cache. What the cache answers is what
the owner answered, and nothing has changed since.
-/

namespace BetterWebBrowser.Webgl.Session

open Framework Framework.Str
open IndexedDb (Json)

namespace Cache

variable {cache later last : Cache} {context other : Nat} {source text : Str} {value found : Json}

def Holds (cache : Cache) (context : Nat) (source : Str) (value : Json) : Prop :=
  ∃ replies, cache.replies.get context = some replies ∧ replies.get source = some value

/-- A status that does not change before the task is over. -/
def Poll (fromStr : Str → Option Command) (source : Str) (value : Json) : Prop :=
  ∃ command, fromStr source = some command ∧ cacheable command value = true

/-- `later` keeps no more than `cache`. -/
structure Within (later cache : Cache) : Prop where
  replies : ∀ context source value, later.Holds context source value → cache.Holds context source value
  finished : later.finished ⊆ cache.finished

theorem Within.refl (cache : Cache) : Within cache cache := ⟨fun _ _ _ => id, Finset.Subset.refl _⟩

theorem Within.trans (h : Within last later) (h' : Within later cache) : Within last cache where
  replies := fun context source value hheld => h'.replies context source value (h.replies context source value hheld)
  finished := h.finished.trans h'.finished

/-- Nothing is kept for a context. -/
def Bare (cache : Cache) (context : Nat) : Prop :=
  (∀ source value, ¬cache.Holds context source value) ∧ context ∉ cache.finished

theorem Bare.within (h : cache.Bare context) (hwithin : Within later cache) : later.Bare context :=
  ⟨fun source value hheld => h.1 source value (hwithin.replies context source value hheld),
    fun hfinished => h.2 (hwithin.finished hfinished)⟩

/-- A reply is added to what is kept, or its context is forgotten. -/
structure Records (fromStr : Str → Option Command) (cache : Cache) (context : Nat) (source : Str) (value : Json)
    (later : Cache) : Prop where
  replies : ∀ other text found, later.Holds other text found →
    cache.Holds other text found ∨ other = context ∧ text = source ∧ found = value ∧ Poll fromStr source value
  finished : ∀ other ∈ later.finished, other ∈ cache.finished ∨
    other = context ∧ value = .Null ∧ (fromStr source).any bareFinish = true ∧ Poll fromStr source value
  answer : later.Bare context ∨ Poll fromStr source value

end Cache

namespace System

variable {G F : Type} (native : Native G F) {s s' : System G F} {id : Nat}

/-! ## What the methods keep -/

/-- Nothing is kept that was not kept before. -/
def Fades (s s' : System G F) : Prop := Cache.Within s'.contexts.sync_replies s.contexts.sync_replies

theorem Fades.trans {s'' : System G F} (h : Fades s s') (h' : Fades s' s'') : Fades s s'' := Cache.Within.trans h' h

/-- The call has not changed the context, and the task goes on: nothing was queued for it, and what it was asked was
lost or a poll. -/
def Spares (id : Nat) : Call → Answer F → Prop
  | .complete_task, _ => False
  | .clear, _ => False
  | .remove other, _ => other ≠ id
  | .execute_numeric other _, .Flag live => other = id → live = false
  | .execute other source _, .Value value => other = id → value = LOST ∨ Cache.Poll native.fromStr source value
  | _, _ => True

/-- Only calls that change nothing leave a reply where it is. -/
structure Retains (cache : Cache) (call : Call) (answer : Answer F) (later : Cache) : Prop where
  replies : ∀ id source value, later.Holds id source value →
    cache.Holds id source value ∧ Spares native id call answer ∨
      (∃ bytes, call = .execute id source bytes) ∧ answer = .Value value ∧ Cache.Poll native.fromStr source value
  finished : ∀ id ∈ later.finished, id ∈ cache.finished ∧ Spares native id call answer ∨
    ∃ source, (∃ bytes, call = .execute id source bytes) ∧ answer = .Value .Null ∧
      (native.fromStr source).any Cache.bareFinish = true

/-- The calls of a realm with their answers, and the realm after them. -/
def history (schedule : List Slice) (calls : List Call) : List (Call × Answer F) × System G F :=
  calls.foldl (fun past call => (past.1 ++ [(call, (past.2.run native call).1)], (past.2.run native call).2))
    ([], .new schedule)

/-- The context answered so, and nothing has changed since. -/
def Answered (log : List (Call × Answer F)) (id : Nat) (source : Str) (value : Json) : Prop :=
  ∃ before bytes later, log = before ++ (.execute id source bytes, .Value value) :: later ∧
    ∀ entry ∈ later, Spares native id entry.1 entry.2

structure Remembered (log : List (Call × Answer F)) (cache : Cache) : Prop where
  replies : ∀ id source value, cache.Holds id source value →
    Cache.Poll native.fromStr source value ∧ Answered native log id source value
  finished : ∀ id ∈ cache.finished, ∃ source, (native.fromStr source).any Cache.bareFinish = true ∧
    Answered native log id source .Null

theorem Answered.snoc {log : List (Call × Answer F)} {source : Str} {value : Json}
    (h : Answered native log id source value) {call : Call} {answer : Answer F} (hspares : Spares native id call answer) :
    Answered native (log ++ [(call, answer)]) id source value := by
  obtain ⟨before, bytes, later, rfl, hlater⟩ := h
  refine ⟨before, bytes, later ++ [(call, answer)], by simp, fun entry hentry => ?_⟩
  rcases List.mem_append.mp hentry with hold | hnew
  · exact hlater entry hold
  · rw [List.mem_singleton.mp hnew]
    exact hspares

theorem Remembered.step {log : List (Call × Answer F)} {cache later : Cache} {call : Call} {answer : Answer F}
    (h : Remembered native log cache) (hretains : Retains native cache call answer later) :
    Remembered native (log ++ [(call, answer)]) later where
  replies := by
    intro id source value hheld
    rcases hretains.replies id source value hheld with ⟨hold, hspares⟩ | ⟨⟨bytes, rfl⟩, rfl, hpoll⟩
    · have hbefore := h.replies id source value hold
      exact ⟨hbefore.1, hbefore.2.snoc native hspares⟩
    · exact ⟨hpoll, log, bytes, [], rfl, by simp⟩
  finished := by
    intro id hid
    rcases hretains.finished id hid with ⟨hold, hspares⟩ | ⟨source, ⟨bytes, rfl⟩, rfl, hfinish⟩
    · obtain ⟨source, hfinish, hbefore⟩ := h.finished id hold
      exact ⟨source, hfinish, hbefore.snoc native hspares⟩
    · exact ⟨source, hfinish, log, bytes, [], rfl, by simp⟩

/-- A context is created and finished. -/
def finished : List Call := [.create 1 1 [], .execute 1 "\x7b\"op\":\"finish\"\x7d".toList none]

end System

end BetterWebBrowser.Webgl.Session
