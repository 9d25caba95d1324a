import Mathlib.Data.List.Chain
import SmallScheme.Proofs.Reader.Calls
import SmallScheme.Proofs.Reader.Faults

/-!
# The earliest refusal

A reader refuses a text at the first token that no expression can go on with. What it has taken
before is the beginning of an expression, since all that is open can still be completed
(`Reader.Opens.viable`). With the token refused it is none any more (`Reader.Opens.not_viable`).
-/

namespace SmallScheme

namespace Grammar

open Reader (refusal?)

/-- Being the beginning of an expression. -/
def Viable (tokens : List Token) : Prop :=
  ∃ rest datum, Expression (tokens ++ rest) datum

/-- Being able to stand next to each other: nothing is closed right behind a quotation mark. -/
def Adjacent (token next : Token) : Prop :=
  token = .quoteMark → next ≠ .closeParen

mutual

theorem Expression.isChain {tokens : List Token} {datum : Datum} (h : Expression tokens datum) :
    tokens.IsChain Adjacent := by
  match h with
  | .atom name => exact List.isChain_singleton _
  | .integer value => exact List.isChain_singleton _
  | .boolean value => exact List.isChain_singleton _
  | .quotation hinner =>
    obtain ⟨first, rest, rfl, hfirst⟩ := hinner.exists_cons
    exact List.isChain_cons_cons.mpr ⟨fun _ => hfirst, hinner.isChain⟩
  | .list hrow => exact List.isChain_cons.mpr ⟨fun _ _ => nofun, hrow.isChain⟩

/-- A row may be closed, because no expression ends with a quotation mark. -/
theorem Row.isChain {tokens : List Token} {data : List Datum} (h : Row tokens data) :
    (tokens ++ [Token.closeParen]).IsChain Adjacent := by
  match h with
  | .nil => exact List.isChain_singleton _
  | .cons hdatum hdata =>
    obtain ⟨front, last, rfl, _, _, hlast⟩ := hdatum.exists_concat
    rw [List.append_assoc]
    refine hdatum.isChain.append hdata.isChain fun token htoken next _ hquote => ?_
    rw [List.getLast?_concat] at htoken
    exact absurd ((Option.some.inj htoken).trans hquote) hlast

end

mutual

/-- An expression is made of tokens that no error is due to, and of closing parentheses. -/
theorem Expression.refusal?_of_mem {tokens : List Token} {token : Token} {datum : Datum}
    (h : Expression tokens datum) (hmem : token ∈ tokens) :
    refusal? token = none ∨ token = .closeParen := by
  match h with
  | .atom name => exact Or.inl (List.mem_singleton.mp hmem ▸ rfl)
  | .integer value => exact Or.inl (List.mem_singleton.mp hmem ▸ rfl)
  | .boolean value => exact Or.inl (List.mem_singleton.mp hmem ▸ rfl)
  | .quotation hinner =>
    rcases List.mem_cons.mp hmem with rfl | hmem
    · exact Or.inl rfl
    · exact hinner.refusal?_of_mem hmem
  | .list hrow =>
    rcases List.mem_cons.mp hmem with rfl | hmem
    · exact Or.inl rfl
    · rcases List.mem_append.mp hmem with hmem | hmem
      · exact hrow.refusal?_of_mem hmem
      · exact Or.inr (List.mem_singleton.mp hmem)

theorem Row.refusal?_of_mem {tokens : List Token} {token : Token} {data : List Datum}
    (h : Row tokens data) (hmem : token ∈ tokens) :
    refusal? token = none ∨ token = .closeParen := by
  match h with
  | .nil => exact absurd hmem List.not_mem_nil
  | .cons hdatum hdata =>
    rcases List.mem_append.mp hmem with hmem | hmem
    · exact hdatum.refusal?_of_mem hmem
    · exact hdata.refusal?_of_mem hmem

end

end Grammar

namespace Reader

open Grammar (Expression Row Viable)

variable {opened : List Opened} {tokens others : List Token} {token : Token} {datum : Datum}
  {kind : Error.Kind}

/-- Behind one more expression all that is open can be completed. -/
theorem Opens.exists_completed (h : Opens tokens opened) (hdatum : Expression others datum) :
    ∃ rest result, Expression (tokens ++ (others ++ rest)) result := by
  induction h generalizing others datum with
  | nothing => exact ⟨[], datum, by rwa [List.append_nil]⟩
  | quotation _ ih =>
    obtain ⟨rest, result, hresult⟩ := ih (.quotation hdatum)
    exact ⟨rest, result, by rwa [List.append_assoc]⟩
  | list _ hrow ih =>
    obtain ⟨rest, result, hresult⟩ := ih (.list (hrow.append (.single hdatum)))
    refine ⟨.closeParen :: rest, result, ?_⟩
    simpa only [List.append_assoc, List.cons_append, List.nil_append] using hresult

/-- What leaves something open is the beginning of an expression. -/
theorem Opens.viable (h : Opens tokens opened) : Viable tokens := by
  obtain ⟨rest, result, hresult⟩ := h.exists_completed (.boolean true)
  exact ⟨_, result, hresult⟩

/-- Nothing is closed unless the innermost of what is open is a list. -/
theorem Opens.exists_list (h : Opens tokens opened) (hviable : Viable (tokens ++ [.closeParen])) :
    ∃ members outer, opened = .list members :: outer := by
  obtain ⟨rest, datum, hexpression⟩ := hviable
  cases h with
  | nothing => exact absurd (List.append_nil _) hexpression.ne_close
  | @quotation tokens outer _ =>
    have hchain := hexpression.isChain
    rw [List.append_assoc, List.append_assoc] at hchain
    exact absurd rfl ((List.isChain_append_cons_cons.mp hchain).2.1 rfl)
  | @list tokens row members outer => exact ⟨members, outer, rfl⟩

/-- With a token that an error is due to, what was the beginning of an expression is none. -/
theorem Opens.not_viable (h : Opens tokens opened) (hkind : refusal? token = some kind)
    (hclose : token = .closeParen → ∀ members outer, opened ≠ .list members :: outer) :
    ¬ Viable (tokens ++ [token]) := by
  rintro ⟨rest, datum, hexpression⟩
  have hmem : token ∈ tokens ++ [token] ++ rest := by simp
  rcases hexpression.refusal?_of_mem hmem with hnone | rfl
  · rw [hnone] at hkind
    cases hkind
  · obtain ⟨members, outer, hopened⟩ := h.exists_list ⟨rest, datum, hexpression⟩
    exact hclose rfl members outer hopened

end Reader

namespace TokenStream

open Cursor (Takes)
open Grammar (Viable)
open Reader (refusal?)

/-- Whatever a stream has been asked for before, it refuses to read at the earliest token. The
tokens before this one are the beginning of an expression, those up to it are not, and the stream
stands right behind it. The token alone decides of which class the error is. -/
theorem read_refusal (limits : Limits) (mode : Mode) (text : List Char) (calls : List Call)
    {fault : Fault} {after : TokenStream}
    (hread : ((ofText mode text).behind limits calls).read limits = (.error fault, after))
    (hlimit : fault ≠ .exhausted) (hnumeral : ∀ count, fault ≠ .numeralTooLong count) :
    ∃ cursor tokens token last error,
      Stands mode text cursor ((ofText mode text).behind limits calls) ∧
      Takes cursor (tokens ++ [token]) last ∧ after = ofCursor last text.length ∧
      Viable tokens ∧ ¬ Viable (tokens ++ [token]) ∧
      fault = .reported error ∧ refusal? token = some error.kind := by
  obtain ⟨cursor, hstands⟩ := stands_behind limits mode text calls
  obtain ⟨last, hstops, hafter⟩ := hstands.stops hread
  cases hstops with
  | @token tokens token opened htakes hopens hstep =>
    rw [List.nil_append] at hopens
    obtain ⟨error, herror, hkind, hclose⟩ := (Reader.refusal_of_step hstep).resolve_left hlimit
    exact ⟨cursor, tokens, token, last, error, hstands, htakes, hafter, hopens.viable,
      hopens.not_viable hkind hclose, herror, hkind⟩
  | numeral _ hnext =>
    obtain ⟨⟨count, hcount⟩, _⟩ := Cursor.tooLong_of_next (congrArg Prod.fst hnext)
    exact absurd hcount (hnumeral count)

/-- A parenthesis right behind a quotation mark, in a list that is quoted, behind an expression and
two looks. -/
theorem read_refusal_quotation :
    let text := ['x', '\'', '(', 'a', ' ', '\'', ')', 'b']
    let stream := (ofText .structural text).behind Limits.standard [.atEnd, .read, .atEnd]
    stream.read Limits.standard =
        (.error (.reported .unexpectedClose), ofCursor ⟨.structural, 7, ['b']⟩ 8) ∧
      ∃ tokens token, Viable tokens ∧ ¬ Viable (tokens ++ [token]) ∧
        refusal? token = some .syntactic := by
  intro text stream
  have hread : stream.read Limits.standard =
      (.error (.reported .unexpectedClose), ofCursor ⟨.structural, 7, ['b']⟩ 8) := by
    with_unfolding_all rfl
  obtain ⟨_, tokens, token, _, _, _, _, _, hviable, hrefused, herror, hkind⟩ :=
    read_refusal Limits.standard .structural text [.atEnd, .read, .atEnd] hread nofun nofun
  cases herror
  exact ⟨hread, tokens, token, hviable, hrefused, hkind⟩

end TokenStream

end SmallScheme
