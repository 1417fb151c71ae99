import PromptRunner.Proofs.Prompt.Leaves

/-!
# What a filled body depends on

Filling looks up the names of tokens and nothing else. So two ways to look names up fill a body
alike if they agree on its names, and one that binds none of them leaves the body as it is.
-/

namespace PromptRunner

variable {lookup lookup' : String → Option String}

namespace Template

theorem fill_congr {text : String} (h : ∀ name ∈ tokens text, lookup name = lookup' name) :
    fill lookup text = fill lookup' text := by
  have hpieces : ∀ p ∈ pieces text.toList, p.fill lookup = p.fill lookup' := by
    intro p hp
    cases p with
    | char c => rfl
    | token name =>
      have hname : String.ofList name ∈ tokens text := by
        rw [mem_tokens, String.toList_ofList]
        exact hp
      simp only [Piece.fill, h _ hname]
  rw [fill, fill, List.flatMap_congr hpieces]

/-- A text is made up of the texts of its pieces, so it is filled with nothing as it stands. -/
theorem fill_none (text : String) : fill (fun _ => none) text = text := by
  have hpiece : ∀ p ∈ pieces text.toList, p.fill (fun _ => none) = p.text := by
    intro p _
    cases p <;> rfl
  rw [fill, List.flatMap_congr hpiece, (reads_pieces text.toList).text_eq, String.ofList_toList]

end Template

namespace Content

theorem fill_congr {c : Content} (h : ∀ name ∈ c.tokens, lookup name = lookup' name) :
    c.fill lookup = c.fill lookup' := by
  induction c using Content.deepInduction with
  | text s => exact congrArg Content.text (Template.fill_congr h)
  | list items ih =>
    have hitems : ∀ c ∈ items, c.fill lookup = c.fill lookup' := fun c hc =>
      ih c hc fun name hname => h name (mem_tokens_list hc hname)
    rw [fill, fill, fillItems_eq, fillItems_eq, List.map_congr_left hitems]
  | map entries ih =>
    have hentries : ∀ e ∈ entries, (e.1, e.2.fill lookup) = (e.1, e.2.fill lookup') := fun e he =>
      congrArg (Prod.mk e.1) (ih e he fun name hname => h name (mem_tokens_map he hname))
    rw [fill, fill, fillEntries_eq, fillEntries_eq, List.map_congr_left hentries]
  | other v => rfl

theorem fill_none (c : Content) : c.fill (fun _ => none) = c := by
  induction c using Content.deepInduction with
  | text s => exact congrArg Content.text (Template.fill_none s)
  | list items ih =>
    have hitems : items.map (fill fun _ => none) = items.map id := List.map_congr_left ih
    rw [fill, fillItems_eq, hitems, List.map_id]
  | map entries ih =>
    have hentries : (entries.map fun e => (e.1, e.2.fill fun _ => none)) = entries.map id :=
      List.map_congr_left fun e he => congrArg (Prod.mk e.1) (ih e he)
    rw [fill, fillEntries_eq, hentries, List.map_id]
  | other v => rfl

end Content

namespace Body

theorem fill_congr {b : Body} (h : ∀ name ∈ b.names, lookup name = lookup' name) :
    b.fill lookup = b.fill lookup' := by
  have htokens : ∀ name ∈ b.tokens, lookup name = lookup' name :=
    fun name hname => h name (Text.mem_nameSet.mpr hname)
  cases b with
  | flat text => exact congrArg Body.flat (Template.fill_congr htokens)
  | messages ms =>
    have hmessages : ∀ m ∈ ms, m.fill lookup = m.fill lookup' := by
      intro m hm
      have hcontent : m.content.fill lookup = m.content.fill lookup' :=
        Content.fill_congr fun name hname => htokens name (List.mem_flatMap.mpr ⟨m, hm, hname⟩)
      rw [Message.fill, Message.fill, hcontent]
    rw [fill, fill, List.map_congr_left hmessages]

theorem fill_none (b : Body) : b.fill (fun _ => none) = b := by
  cases b with
  | flat text => exact congrArg Body.flat (Template.fill_none text)
  | messages ms =>
    have hmessages : ms.map (Message.fill fun _ => none) = ms.map id := by
      refine List.map_congr_left fun m _ => ?_
      rw [Message.fill, Content.fill_none]
      rfl
    rw [fill, hmessages, List.map_id]

theorem fill_of_unbound {b : Body} (h : ∀ name ∈ b.names, lookup name = none) :
    b.fill lookup = b :=
  (fill_congr h).trans b.fill_none

end Body

end PromptRunner
