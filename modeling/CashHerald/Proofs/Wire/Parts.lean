import CashHerald.Proofs.Wire.Chunks
import CashHerald.Proofs.Wire.Splitting
import CashHerald.Wire.Dialect

/-!
Decoders of every dialect that are fed in parts. Main statement: octets that a decoder accepts at
once it accepts in two parts as well, and finds the same messages in them.
-/

namespace CashHerald.Wire

/-- A feed of octets is made up of the feeds of two parts of them. -/
def Feeding.InParts {State : Type} (feeding : Feeding State) (Settled : State → Prop) : Prop :=
  ∀ {state front back messages last}, Settled state →
    feeding state (front ++ back) = (.ok messages, last) →
      ∃ early middle late, feeding state front = (.ok early, middle) ∧ Settled middle ∧
        feeding middle back = (.ok late, last) ∧ messages = early ++ late

theorem Feeding.Incremental.inParts {State : Type} {feeding : Feeding State}
    {Settled : State → Prop} (incremental : feeding.Incremental Settled) :
    feeding.InParts Settled := by
  intro state front back messages last _ whole
  rcases first : feeding state front with ⟨violation | early, middle⟩
  · obtain ⟨other, final, refused⟩ := incremental.refuses ⟨violation, middle, first⟩ back
    rw [whole] at refused
    cases refused
  · obtain ⟨late, second, same⟩ := incremental.accepted_append first whole
    exact ⟨early, middle, late, rfl, incremental.settled first, second, same⟩

theorem Delimited.feed_inParts : Feeding.InParts Delimited.Decoder.feed Delimited.Settled := by
  intro decoder front back messages last settled whole
  obtain ⟨read, split, rfl, rfl⟩ := (feed_eq_ok_iff settled).mp whole
  rw [← List.append_assoc, split_append] at split
  rcases first : Delimited.split (decoder.buffer ++ front) with code | early
  · rw [first] at split
    cases split
  · simp only [first] at split
    rcases second : Delimited.split (early.unfinished ++ back) with code | late
    · rw [second] at split
      cases split
    rw [second] at split
    cases split
    have between : Settled ⟨early.unfinished, early.unfinished.length⟩ :=
      ⟨(split_unfinished first).1, rfl⟩
    refine ⟨early.texts.map .text, _, late.texts.map .text, ?_, between, ?_, ?_⟩
    · exact (feed_eq_ok_iff settled).mpr ⟨early, first, rfl, rfl⟩
    · exact (feed_eq_ok_iff between).mpr ⟨late, second, rfl, rfl⟩
    · exact List.map_append

namespace Decoder

/-- A decoder between two feeds has read all that is complete. -/
def Settled : Decoder → Prop
  | .hybi13 inner => Frame.parse inner.buffer = .ok none
  | .draft76 inner => Delimited.Settled inner

theorem settled_of_decoder? {dialect : Dialect} {decoder : Decoder}
    (speaks : dialect.decoder? = some decoder) : decoder.Settled := by
  cases dialect with
  | hybi13 =>
    obtain rfl := Option.some.inj speaks
    exact rfl
  | draft76 =>
    obtain rfl := Option.some.inj speaks
    exact Delimited.settled_fresh
  | flashPolicy => cases speaks

/-- A settled decoder finds nothing in nothing. -/
theorem feed_nil {decoder : Decoder} (settled : decoder.Settled) :
    decoder.feed [] = (.ok [], decoder) := by
  cases decoder with
  | hybi13 inner =>
    simp only [feed, Reassembly.feed_incremental.nothing settled]
  | draft76 inner =>
    have whole : Delimited.split (inner.buffer ++ []) = .ok ⟨[], inner.buffer⟩ := by
      rw [List.append_nil]
      exact settled.1
    have fed := (Delimited.feed_eq_ok_iff settled).mpr ⟨_, whole, rfl, rfl⟩
    simp only [feed, fed, ← settled.2, List.map_nil]

/-- Octets that a decoder accepts at once it accepts in two parts as well, and finds the same
messages in them. -/
theorem feed_inParts : Feeding.InParts feed Settled := by
  intro decoder front back messages last settled whole
  cases decoder with
  | hybi13 inner =>
    simp only [feed, Prod.mk.injEq] at whole
    obtain ⟨early, middle, late, first, between, second, same⟩ :=
      Reassembly.feed_incremental.inParts settled (Prod.ext whole.1 rfl)
    obtain ⟨-, rfl⟩ := whole
    exact ⟨early, .hybi13 middle, late, by simp only [feed, first], between,
      by simp only [feed, second], same⟩
  | draft76 inner =>
    simp only [feed, Prod.mk.injEq] at whole
    obtain ⟨early, middle, late, first, between, second, same⟩ :=
      Delimited.feed_inParts settled (Prod.ext whole.1 rfl)
    obtain ⟨-, rfl⟩ := whole
    exact ⟨early, .draft76 middle, late, by simp only [feed, first], between,
      by simp only [feed, second], same⟩

end Decoder

end CashHerald.Wire
