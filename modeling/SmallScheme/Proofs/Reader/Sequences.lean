import SmallScheme.Reader

/-!
# Reading all expressions

A stream is read one expression after the other: up to its end, or to a fault. There is an equation
for each of the three ways on, and an induction over the expressions that are read
(`TokenStream.readAll_induction`).
-/

namespace SmallScheme.TokenStream

variable {limits : Limits} {stream after : TokenStream} {datum : Datum} {fault : Fault}

theorem readAll_of_nil (h : stream.pending = []) :
    stream.readAll limits = ([], none, stream.finished) := by
  rw [readAll]
  split
  · rfl
  · next hcons =>
    rw [h] at hcons
    cases hcons

theorem readAll_of_read (h : stream.read limits = (.ok datum, after)) :
    stream.readAll limits =
      (datum :: (after.readAll limits).1, (after.readAll limits).2.1,
        (after.readAll limits).2.2) := by
  rw [readAll]
  split
  · next hnil =>
    rw [read, hnil] at h
    cases h
  · split
    · next hfault =>
      rw [h] at hfault
      cases hfault
    · next hread =>
      rw [h] at hread
      cases hread
      rfl

theorem readAll_of_fault (hpending : stream.pending ≠ [])
    (h : stream.read limits = (.error fault, after)) :
    stream.readAll limits = ([], some fault, after) := by
  rw [readAll]
  split
  · next hnil => exact absurd hnil hpending
  · split
    · next hfault =>
      rw [h] at hfault
      cases hfault
      rfl
    · next hread =>
      rw [h] at hread
      cases hread

/-- Induction over the expressions of a stream. The stream is finished, or a fault stops it, or an
expression is read and the others are still to be read. -/
@[elab_as_elim]
theorem readAll_induction (limits : Limits) {motive : TokenStream → Prop}
    (finished : ∀ stream, stream.pending = [] → motive stream)
    (stopped : ∀ stream fault after, stream.pending ≠ [] →
      stream.read limits = (.error fault, after) → motive stream)
    (read : ∀ stream datum after, stream.read limits = (.ok datum, after) → motive after →
      motive stream)
    (stream : TokenStream) : motive stream := by
  induction stream using readAll.induct limits with
  | case1 stream hpending => exact finished stream hpending
  | case2 stream lexeme rest hpending fault after hread =>
    exact stopped stream fault after (hpending ▸ List.cons_ne_nil lexeme rest) hread
  | case3 stream lexeme rest hpending datum after hread _ _ _ _ _ ih =>
    exact read stream datum after hread ih

end SmallScheme.TokenStream
