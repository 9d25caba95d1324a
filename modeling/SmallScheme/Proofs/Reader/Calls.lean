import Mathlib.Data.List.Induction
import SmallScheme.Proofs.Reader.Prefixes
import SmallScheme.Proofs.Reader.Sequences

/-!
# Calls on one stream

A consumer reads expressions one by one or all at once, and looks for the end in between. A fault
does not keep it from going on. Wherever it has come to, the lexemes that it has still to take are
those ahead of a place in the text (`stands_behind`). It may have looked at the first of them, and
then its own position lies behind that one already.
-/

namespace SmallScheme

namespace Cursor

open Text (isBlank)

/-- Standing in a text, with what is ahead of it and the number of characters behind it. -/
structure Within (mode : Mode) (text : List Char) (cursor : Cursor) : Prop where
  mode : cursor.mode = mode
  tiles : ∃ piece, text = piece ++ cursor.ahead ∧ cursor.position = piece.length

variable {mode : Mode} {text : List Char} {cursor last : Cursor} {tokens : List Token}

theorem within_ofText (mode : Mode) (text : List Char) : (ofText mode text).Within mode text :=
  ⟨rfl, [], rfl, rfl⟩

theorem next_mode (cursor : Cursor) : cursor.next.2.mode = cursor.mode := by
  cases htext : cursor.ahead.dropWhile isBlank with
  | nil => rw [next_of_blank htext]; rfl
  | cons first rest => rw [next_of_cons htext]; rfl

theorem Within.next (h : cursor.Within mode text) : cursor.next.2.Within mode text := by
  obtain ⟨front, htext, hposition⟩ := h.tiles
  obtain ⟨piece, hahead, hnext⟩ := cursor.next_tiles
  refine ⟨cursor.next_mode.trans h.mode, front ++ piece, ?_, ?_⟩
  · rw [htext, hahead, List.append_assoc]
  · rw [hnext, hposition, List.length_append]

theorem Takes.within (h : Takes cursor tokens last) (hcursor : cursor.Within mode text) :
    last.Within mode text := by
  induction h with
  | none => exact hcursor
  | @next cursor after last token tokens hnext _ ih =>
    have hafter := hcursor.next
    rw [hnext] at hafter
    exact ih hafter

/-- With no lexeme ahead, the token at the end is taken again and again, behind the last
character. -/
theorem Within.next_of_lexemes_eq_nil (h : cursor.Within mode text) (hnil : cursor.lexemes = []) :
    ∃ last : Cursor, cursor.next = (.ok .endOfInput, last) ∧ last.lexemes = [] ∧
      last.position = text.length := by
  rcases cursor.lexemes_cases with ⟨_, hnext⟩ | ⟨_, _, hcons⟩
  · cases hahead : cursor.ahead.dropWhile isBlank with
    | nil =>
      have hlast := h.next
      rw [hnext] at hlast
      obtain ⟨piece, htext, hposition⟩ := hlast.tiles
      have hend : cursor.skipBlanks.ahead = [] := hahead
      refine ⟨cursor.skipBlanks, hnext, lexemes_of_blank (by rw [hend]; rfl), ?_⟩
      rw [hposition, htext, hend, List.append_nil]
    | cons first rest =>
      rw [Cursor.lexemes, SmallScheme.lexemes_of_cons hahead] at hnil
      cases hnil
  · rw [hnil] at hcons
    cases hcons

end Cursor

namespace Reader

open Cursor (Takes)

/-- How reading stops at a place, after some tokens: behind a token that cannot go on with what is
open, or that the limit does not allow, or else at a numeral that is too long. -/
inductive Stops (limit : Nat) (tokens : List Token) (cursor last : Cursor) (fault : Fault) : Prop
  | token {inner : List Token} {token : Token} {opened : List Opened} :
      Takes cursor (inner ++ [token]) last → Opens (tokens ++ inner) opened →
      step limit opened token last.position = .stopped fault → Stops limit tokens cursor last fault
  | numeral {inner : List Token} {middle : Cursor} : Takes cursor inner middle →
      middle.next = (.error fault, last) → Stops limit tokens cursor last fault

variable {limit : Nat} {opened : List Opened} {tokens : List Token} {mode : Mode}
  {text : List Char} {cursor after last : Cursor} {fault : Fault} {token : Token}

/-- A token in front does not change how the reading stops. -/
theorem Stops.cons (h : Stops limit (tokens ++ [token]) after last fault)
    (hnext : cursor.next = (.ok token, after)) : Stops limit tokens cursor last fault := by
  cases h with
  | token htakes hopens hstep =>
    rw [List.append_assoc] at hopens
    exact .token (.next hnext htakes) hopens hstep
  | numeral htakes hfault => exact .numeral (.next hnext htakes) hfault

theorem Stops.within (h : Stops limit tokens cursor last fault)
    (hcursor : cursor.Within mode text) : last.Within mode text := by
  cases h with
  | token htakes => exact htakes.within hcursor
  | numeral htakes hfault =>
    have hlast := (htakes.within hcursor).next
    rwa [hfault] at hlast

/-- A reader that is stopped stands right behind what stops it. -/
theorem stops_of_readFrom {stream : TokenStream} (hcursor : cursor.Within mode text)
    (h : Opens tokens opened)
    (hread : readFrom limit text.length opened cursor.lexemes = (.error fault, stream)) :
    ∃ last, Stops limit tokens cursor last fault ∧ stream = .ofCursor last text.length := by
  induction hlexemes : cursor.lexemes generalizing cursor tokens opened with
  | nil =>
    obtain ⟨last, hnext, hlast, hposition⟩ := hcursor.next_of_lexemes_eq_nil hlexemes
    rw [hlexemes, readFrom] at hread
    cases hread
    refine ⟨last, .token (.single hnext) (by rwa [List.append_nil]) rfl, ?_⟩
    rw [TokenStream.ofCursor, hlast, hposition]
  | cons lexeme rest ih =>
    obtain ⟨htoken, hposition, hrest⟩ := Cursor.next_of_lexemes hlexemes
    rw [hlexemes, readFrom, stepLexeme, ← htoken, ← hposition, ← hrest] at hread
    cases hnext : cursor.next.1 with
    | error cause =>
      rw [hnext] at hread
      cases hread
      exact ⟨cursor.next.2, .numeral (.none cursor) (Prod.ext hnext rfl), rfl⟩
    | ok token =>
      have htake : cursor.next = (.ok token, cursor.next.2) := Prod.ext hnext rfl
      rw [hnext] at hread
      dsimp only at hread
      have hfollows : Follows (tokens ++ [token])
        (step limit opened token cursor.next.2.position) := step_follows h
      cases hstep : step limit opened token cursor.next.2.position with
      | complete datum =>
        rw [hstep] at hread
        cases hread
      | incomplete inner =>
        rw [hstep] at hread hfollows
        obtain ⟨last, hstops, hstream⟩ := ih hcursor.next hfollows hread hrest
        exact ⟨last, hstops.cons htake, hstream⟩
      | stopped cause =>
        rw [hstep] at hread
        cases hread
        exact ⟨cursor.next.2, .token (.single htake) (by rwa [List.append_nil]) hstep, rfl⟩

end Reader

namespace TokenStream

/-- Something that a stream can be asked for. -/
inductive Call where
  /-- The next expression. -/
  | read
  /-- Whether all tokens are taken. -/
  | atEnd
  /-- All expressions. -/
  | readAll

/-- What a stream answers to a call. -/
inductive Answer where
  | read (result : Except Fault Datum)
  | atEnd (result : Except Fault Bool)
  | readAll (data : List Datum) (fault : Option Fault)

/-- Whether a call takes tokens. The others only look. -/
def Call.takes : Call → Bool
  | .atEnd => false
  | .read | .readAll => true

/-- Whether an answer is one to a call that takes tokens. -/
def Answer.takes : Answer → Bool
  | .atEnd _ => false
  | .read _ | .readAll .. => true

/-- What a stream answers to a call, and the stream behind it. -/
def ask (limits : Limits) (stream : TokenStream) : Call → Answer × TokenStream
  | .read =>
    let (result, after) := stream.read limits
    (.read result, after)
  | .atEnd =>
    let (result, after) := stream.atEnd
    (.atEnd result, after)
  | .readAll =>
    let (data, fault, after) := stream.readAll limits
    (.readAll data fault, after)

/-- What a stream answers to calls one after the other, also behind a fault. -/
def answers (limits : Limits) : List Call → TokenStream → List Answer
  | [], _ => []
  | call :: calls, stream =>
    (stream.ask limits call).1 :: answers limits calls (stream.ask limits call).2

/-- The stream behind calls. -/
def behind (limits : Limits) (calls : List Call) (stream : TokenStream) : TokenStream :=
  calls.foldl (fun stream call => (stream.ask limits call).2) stream

/-- Standing at a place in a text: the lexemes ahead of it are still to be taken. The position of
the stream is the place, or that behind the next token if this has been looked at. -/
structure Stands (mode : Mode) (text : List Char) (cursor : Cursor) (stream : TokenStream) :
    Prop where
  within : cursor.Within mode text
  pending : stream.pending = cursor.lexemes
  length : stream.length = text.length
  position : stream.position = cursor.position ∨ stream.position = cursor.next.2.position

variable {limits : Limits} {mode : Mode} {text : List Char} {cursor : Cursor}
  {stream after : TokenStream} {token : Token} {fault : Fault}

theorem stands_ofCursor (h : cursor.Within mode text) :
    Stands mode text cursor (ofCursor cursor text.length) :=
  ⟨h, rfl, rfl, Or.inl rfl⟩

namespace Stands

/-- Reading does not depend on whether the next token has been looked at. -/
theorem read_eq (h : Stands mode text cursor stream) :
    stream.read limits = (ofCursor cursor text.length).read limits := by
  rw [read, read, h.pending, h.length]
  rfl

/-- A stream is stopped right behind what stops it. -/
theorem stops (h : Stands mode text cursor stream)
    (hread : stream.read limits = (.error fault, after)) :
    ∃ last, Reader.Stops limits.reading [] cursor last fault ∧ after = ofCursor last text.length :=
  Reader.stops_of_readFrom h.within .nothing (h.read_eq.symm.trans hread)

/-- Behind an expression, or behind what stops it, a stream stands at a place again, and has not
looked beyond it. -/
theorem exists_read (h : Stands mode text cursor stream) (limits : Limits) :
    ∃ last, last.Within mode text ∧ (stream.read limits).2 = ofCursor last text.length := by
  rcases hread : stream.read limits with ⟨fault | datum, after⟩
  · obtain ⟨last, hstops, hafter⟩ := h.stops hread
    exact ⟨last, hstops.within h.within, hafter⟩
  · rw [h.read_eq] at hread
    obtain ⟨_, _, last, hbegins, hafter⟩ := begins_of_read hread
    exact ⟨last, hbegins.takes.within h.within, hafter⟩

/-- Looking at a token tells whether it is the one at the end, and it is still to be taken. -/
theorem atEnd_of_next (h : Stands mode text cursor stream) (hnext : cursor.next.1 = .ok token) :
    stream.atEnd.1 = .ok (decide (token = .endOfInput)) ∧
      Stands mode text cursor stream.atEnd.2 := by
  rcases cursor.lexemes_cases with ⟨hnil, hend⟩ | ⟨hne, spelling, hcons⟩
  · obtain ⟨last, hlast, _, hposition⟩ := h.within.next_of_lexemes_eq_nil hnil
    have hpending : stream.pending = [] := h.pending.trans hnil
    rw [hend] at hnext
    cases hnext
    rw [atEnd, hpending]
    refine ⟨rfl, h.within, hnil.symm, h.length, Or.inr ?_⟩
    rw [hlast, hposition]
    exact h.length
  · rw [hnext] at hne hcons
    rw [atEnd, h.pending.trans hcons]
    refine ⟨?_, h.within, hcons.symm, h.length, Or.inr rfl⟩
    rw [decide_eq_false fun heq => hne (congrArg Except.ok heq)]

theorem exists_atEnd (h : Stands mode text cursor stream) :
    ∃ last, Stands mode text last stream.atEnd.2 := by
  cases hnext : cursor.next.1 with
  | ok token => exact ⟨cursor, (h.atEnd_of_next hnext).2⟩
  | error fault =>
    -- A fault is not looked at but taken.
    rcases cursor.lexemes_cases with ⟨_, hend⟩ | ⟨_, spelling, hcons⟩
    · rw [hend] at hnext
      cases hnext
    · rw [hnext] at hcons
      rw [atEnd, h.pending.trans hcons]
      exact ⟨cursor.next.2, h.within.next, rfl, h.length, Or.inl rfl⟩

theorem exists_readAll (h : Stands mode text cursor stream) :
    ∃ last, Stands mode text last (stream.readAll limits).2.2 := by
  induction stream using readAll_induction limits generalizing cursor with
  | finished stream hpending =>
    have hatEnd : stream.atEnd.2 = stream.finished := by rw [atEnd, hpending]
    rw [readAll_of_nil hpending, ← hatEnd]
    exact h.exists_atEnd
  | stopped stream fault after hpending hread =>
    obtain ⟨last, hwithin, hafter⟩ := h.exists_read limits
    rw [hread] at hafter
    rw [readAll_of_fault hpending hread]
    exact ⟨last, hafter ▸ stands_ofCursor hwithin⟩
  | read stream datum after hread ih =>
    obtain ⟨last, hwithin, hafter⟩ := h.exists_read limits
    rw [hread] at hafter
    rw [readAll_of_read hread]
    obtain rfl : after = ofCursor last text.length := hafter
    exact ih (stands_ofCursor hwithin)

/-- Behind a call a stream stands at a place again. -/
theorem exists_ask (h : Stands mode text cursor stream) (limits : Limits) (call : Call) :
    ∃ last, Stands mode text last (stream.ask limits call).2 := by
  cases call with
  | read =>
    obtain ⟨last, hwithin, hafter⟩ := h.exists_read limits
    exact ⟨last, (congrArg (Stands mode text last) hafter).mpr (stands_ofCursor hwithin)⟩
  | atEnd => exact h.exists_atEnd
  | readAll => exact h.exists_readAll

end Stands

/-- Whatever a stream has been asked for, it stands at a place in its text. -/
theorem stands_behind (limits : Limits) (mode : Mode) (text : List Char) (calls : List Call) :
    ∃ cursor, Stands mode text cursor ((ofText mode text).behind limits calls) := by
  induction calls using List.reverseRecOn with
  | nil => exact ⟨_, stands_ofCursor (Cursor.within_ofText mode text)⟩
  | append_singleton calls call ih =>
    obtain ⟨cursor, h⟩ := ih
    rw [behind, List.foldl_append]
    exact h.exists_ask limits call

end TokenStream

end SmallScheme
