import PromptRunner.Yaml.Decode

/-!
# What a decoder gives

A property of everything that a decoder can give, from whatever number of aliases is left. It is put
together along the decoder: from what comes before a step to what the step gives, from the items to
the list, and from a field and its default to the read value.
-/

namespace PromptRunner.Yaml

namespace Decoder

/-- Whatever a decoder gives has a property. -/
def Gives {α : Type} (x : Decoder α) (P : α → Prop) : Prop :=
  ∀ left a rest, x left = some (a, rest) → P a

variable {α β : Type} {P : α → Prop} {Q : β → Prop}

theorem gives_true (x : Decoder α) : Gives x fun _ => True :=
  fun _ _ _ _ => trivial

theorem gives_pure {a : α} (h : P a) : Gives (pure a) P := by
  intro left b rest hb
  obtain ⟨rfl, -⟩ := Prod.mk.inj (Option.some.inj hb)
  exact h

theorem gives_failure : Gives (failure : Decoder α) P :=
  nofun

theorem Gives.bind {x : Decoder α} {f : α → Decoder β} (hx : Gives x P)
    (hf : ∀ a, P a → Gives (f a) Q) : Gives (x >>= f) Q := by
  intro left b rest hb
  change (x left).bind (fun r => f r.1 r.2) = some (b, rest) at hb
  obtain ⟨⟨a, left'⟩, ha, hb⟩ := Option.bind_eq_some_iff.mp hb
  exact hf a (hx left a left' ha) left' b rest hb

theorem Gives.map {x : Decoder α} {f : α → β} (hx : Gives x fun a => Q (f a)) :
    Gives (f <$> x) Q := by
  rw [map_eq_pure_bind]
  exact hx.bind fun _ ha => gives_pure ha

/-- What holds of each item holds of all items of the list that is given. -/
theorem gives_mapM {f : α → Decoder β} (hf : ∀ a, Gives (f a) Q) (as : List α) :
    Gives (as.mapM f) fun bs => ∀ b ∈ bs, Q b := by
  induction as with
  | nil =>
    rw [List.mapM_nil]
    exact gives_pure fun _ h => nomatch h
  | cons a as ih =>
    rw [List.mapM_cons]
    refine (hf a).bind fun b hb => ih.bind fun bs hbs => gives_pure ?_
    intro b' hm
    rcases List.mem_cons.mp hm with rfl | hm
    · exact hb
    · exact hbs b' hm

theorem gives_field {name : String} {fields : List (String × Tree)} {missing : α}
    {read : Tree → Decoder α} (hm : P missing) (hr : ∀ t, Gives (read t) P) :
    Gives (Decode.field name fields missing read) P := by
  unfold Decode.field
  split
  · exact hr _
  · exact gives_pure hm
  · exact gives_failure

end Decoder

theorem Document.decode_gives {α : Type} {P : α → Prop} {d : Document} {read : Tree → Decoder α}
    (h : ∀ t, Decoder.Gives (read t) P) {a : α} (ha : d.decode read = some a) : P a := by
  obtain ⟨⟨a, rest⟩, hread, rfl⟩ := Option.map_eq_some_iff.mp ha
  exact h _ _ _ _ hread

end PromptRunner.Yaml
