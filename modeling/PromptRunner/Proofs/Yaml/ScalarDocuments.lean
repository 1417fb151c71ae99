import PromptRunner.Proofs.Yaml.Reading
import PromptRunner.Proofs.Yaml.WordTokens

/-!
# Documents with one scalar

A mapping with one entry on one line, and a list of messages with one message, as they are written,
as tokens and as trees. The scalar in them may be any word.
-/

namespace PromptRunner.Yaml

/-- What stands behind the last line of a text: nothing, or a line feed. -/
def IsEnding (ending : List Char) : Prop :=
  ending = [] ∨ ending = ['\n']

variable {w name role ending text : List Char} {line column index margin : Nat}

theorem IsWord.isAllowed (h : IsWord w) : w.all isAllowed = true :=
  List.all_eq_true.mpr fun c hc => (h.inside c hc).allowed

theorem IsEnding.isAllowed (h : IsEnding ending) : ending.all isAllowed = true := by
  rcases h with rfl | rfl <;> decide

theorem IsWord.length_pos (h : IsWord w) : 0 < w.length := by
  obtain ⟨c, cs, rfl, -⟩ := h.starts
  exact Nat.succ_pos cs.length

theorem length_marksFrom_append (h : IsWord w) (line column index : Nat) (text : List Char) :
    (marksFrom line column index (w ++ text)).length =
      w.length + (marksFrom line (column + w.length) (index + w.length) text).length := by
  have hplaced (column index : Nat) : (placed line column index w).length = w.length := by
    clear h
    induction w generalizing column index with
    | nil => rfl
    | cons c w ih => rw [placed, List.length_cons, ih, List.length_cons]
  rw [marksFrom_append h.inside, List.length_append, hplaced]

/-- The tokens of a text, if they are read in fewer steps than there are marks. -/
theorem tokens?_of_run {tokens : List Token} (n : Nat) (hallowed : text.all isAllowed = true)
    (hn : n ≤ (marksFrom 0 0 0 text).length)
    (hrun : ∀ fuel, Scanner.run (fuel + n) {} (marksFrom 0 0 0 text) = some tokens) :
    tokens? text = some tokens := by
  obtain ⟨fuel, hfuel⟩ := Nat.exists_eq_add_of_le' hn
  rw [tokens?, marks?, if_pos hallowed, Option.bind_some, hfuel, Nat.add_right_comm]
  exact hrun (fuel + 1)

namespace Scanner

variable {tokens : List Token} {count : Nat} {outer : List Nat}

theorem run_last (h : IsWord w) (hending : IsEnding ending) (hmargin : margin ≤ column + 1)
    (hopen : 0 < margin) (hcolumn : 0 < column) (fuel : Nat) :
    run (fuel + 2) (inBlock tokens count margin outer false none)
        (marksFrom line column index (w ++ ending)) =
      some (.streamEnd ::
        (closeTo 0 (.scalar w .plain :: tokens) (count + 1) margin outer).1).reverse := by
  obtain ⟨c, cs, rfl, -⟩ := h.starts
  rw [marksFrom_append h.inside]
  rcases hending with rfl | rfl
  · have hends : Plain.Ends margin
        (marksFrom line (column + (c :: cs).length) (index + (c :: cs).length) []) false
        (marksFrom line (column + (c :: cs).length) (index + (c :: cs).length) []) :=
      Plain.ends_end rfl
    rw [next_word h hends hmargin (.inl hcolumn) (fuel + 1)]
    exact run_end rfl fuel
  · have hends : Plain.Ends margin
        (marksFrom line (column + (c :: cs).length) (index + (c :: cs).length) ['\n']) true
        (marksFrom (line + 1) 0 (index + (c :: cs).length + 1) []) :=
      Plain.ends_break rfl [] (by simp) ⟨rfl, rfl⟩ hopen
    rw [next_word h hends hmargin (.inl hcolumn) (fuel + 1)]
    exact run_end rfl fuel

theorem behindKey_eq (tokens : List Token) (count : Nat) (outer : List Nat) (t : Token)
    (hmargin : margin ≤ column + 1) :
    ∃ tokens' count' margin' outer',
      behindKey tokens count margin outer column t =
        inBlock tokens' count' margin' outer' false none ∧
      0 < margin' ∧ margin' ≤ column + 1 := by
  rw [behindKey]
  split_ifs with hless
  · exact ⟨_, _, _, _, rfl, by omega, hmargin⟩
  · exact ⟨_, _, _, _, rfl, Nat.succ_pos column, Nat.le_refl _⟩

theorem run_lastEntry (hname : IsKey name) (hw : IsWord w) (hending : IsEnding ending)
    (hmargin : margin ≤ column + 1) (fuel : Nat) {s : Scanner}
    (hs : behindKey tokens count margin outer column (.scalar name .plain) = s) :
    run (fuel + 4) (inBlock tokens count margin outer true none)
        (marksFrom line column index (name ++ ':' :: ' ' :: (w ++ ending))) =
      some (.streamEnd ::
        (closeTo 0 (.scalar w .plain :: s.tokens) (s.count + 1) s.margin s.outer).1).reverse := by
  obtain ⟨tokens', count', margin', outer', hbehind, hopen, hmargin'⟩ :=
    behindKey_eq tokens count outer (.scalar name .plain) hmargin
  rw [← hs, hbehind]
  calc run (fuel + 4) (inBlock tokens count margin outer true none)
          (marksFrom line column index (name ++ ':' :: ' ' :: (w ++ ending)))
      = run (fuel + 2) (inBlock tokens' count' margin' outer' false none)
          (marksFrom line (column + name.length + 1) (index + name.length + 1)
            (' ' :: (w ++ ending))) := by
        rw [← hbehind]
        exact steps_key hname hmargin rfl (fuel + 2)
    _ = run (fuel + 2) (inBlock tokens' count' margin' outer' false none)
          (marksFrom line (column + name.length + 1 + 1) (index + name.length + 1 + 1)
            (w ++ ending)) :=
        run_space rfl _ _ (fuel + 1)
    _ = some (.streamEnd ::
          (closeTo 0 (.scalar w .plain :: tokens') (count' + 1) margin' outer').1).reverse :=
        run_last hw hending (by omega) hopen (by omega) fuel

end Scanner

open Scanner (IsKey Steps inBlock run_lastEntry)

/-! ## A mapping with one entry -/

def entryText (name w ending : List Char) : List Char :=
  name ++ ':' :: ' ' :: (w ++ ending)

def entryTokens (name w : List Char) : List Token :=
  [.blockMappingStart, .key, .scalar name .plain, .value, .scalar w .plain, .blockEnd, .streamEnd]

theorem tokens?_entryText (hname : IsKey name) (hw : IsWord w) (hending : IsEnding ending) :
    tokens? (entryText name w ending) = some (entryTokens name w) := by
  have hallowed : (entryText name w ending).all isAllowed = true := by
    have hmarks : isAllowed ':' = true ∧ isAllowed ' ' = true := by decide
    simp [entryText, List.all_append, hname.word.isAllowed, hw.isAllowed, hending.isAllowed, hmarks]
  apply tokens?_of_run 4 hallowed
  · have hlength : (marksFrom 0 0 0 (entryText name w ending)).length = name.length + (1 + 1 +
        (marksFrom 0 (0 + name.length + 1 + 1) (0 + name.length + 1 + 1) (w ++ ending)).length) := by
      rw [entryText, length_marksFrom_append hname.word, Nat.add_comm (1 + 1)]
      rfl
    have hpos := hname.word.length_pos
    have hpos' := hw.length_pos
    rw [hlength, length_marksFrom_append hw]
    omega
  · intro fuel
    exact run_lastEntry hname hw hending (Nat.zero_le 1) fuel rfl

/-! ## A list of messages with one message -/

def messagesKey : List Char := ['m', 'e', 's', 's', 'a', 'g', 'e', 's']

def roleKey : List Char := ['r', 'o', 'l', 'e']

def contentKey : List Char := ['c', 'o', 'n', 't', 'e', 'n', 't']

def messageText (role w ending : List Char) : List Char :=
  messagesKey ++ ':' :: '\n' :: '-' :: ' ' :: (roleKey ++ ':' :: ' ' ::
    (role ++ '\n' :: ' ' :: ' ' :: (contentKey ++ ':' :: ' ' :: (w ++ ending))))

def messageTokens (role w : List Char) : List Token :=
  [.blockMappingStart, .key, .scalar messagesKey .plain, .value, .blockEntry, .blockMappingStart, .key,
    .scalar roleKey .plain, .value, .scalar role .plain, .key, .scalar contentKey .plain, .value,
    .scalar w .plain, .blockEnd, .blockEnd, .streamEnd]

theorem isKey_messagesKey : IsKey messagesKey :=
  ⟨isWord_of_all (by decide) (by decide), by decide, by decide⟩

theorem isKey_roleKey : IsKey roleKey :=
  ⟨isWord_of_all (by decide) (by decide), by decide, by decide⟩

theorem isKey_contentKey : IsKey contentKey :=
  ⟨isWord_of_all (by decide) (by decide), by decide, by decide⟩

theorem messageText_eq (role w ending : List Char) :
    messageText role w ending =
      "messages:\n- role: ".toList ++ role ++ "\n  content: ".toList ++ w ++ ending := by
  have hfront : "messages:\n- role: ".toList =
      messagesKey ++ ':' :: '\n' :: '-' :: ' ' :: (roleKey ++ [':', ' ']) := by decide
  have hmiddle : "\n  content: ".toList = '\n' :: ' ' :: ' ' :: (contentKey ++ [':', ' ']) := by decide
  rw [hfront, hmiddle, messageText]
  simp only [List.append_assoc, List.cons_append, List.nil_append]

theorem isAllowed_messageText (hrole : IsWord role) (hw : IsWord w) (hending : IsEnding ending) :
    (messageText role w ending).all isAllowed = true := by
  have hfront : "messages:\n- role: ".toList.all isAllowed = true := by decide
  have hmiddle : "\n  content: ".toList.all isAllowed = true := by decide
  rw [messageText_eq]
  simp only [List.all_append, hfront, hmiddle, hrole.isAllowed, hw.isAllowed, hending.isAllowed,
    Bool.and_self]

/-- A word that is the last one of its line, before a line that is indented by two blanks. -/
theorem steps_wordBeforeLine {tokens : List Token} {count : Nat} {outer : List Nat}
    (h : IsWord w) (hname : IsWord name) (hmargin : margin ≤ column + 1) (hcolumn : 0 < column)
    (hnext : 2 < margin) :
    Steps 1 (inBlock tokens count margin outer false none)
      (marksFrom line column index (w ++ '\n' :: ' ' :: ' ' :: (name ++ text)))
      (inBlock (.scalar w .plain :: tokens) (count + 1) margin outer true none)
      (marksFrom (line + 1) 2 (index + w.length + 3) (name ++ text)) := by
  obtain ⟨c, cs, rfl, -⟩ := h.starts
  obtain ⟨d, ds, rfl, -⟩ := hname.starts
  have hd := hname.inside d List.mem_cons_self
  obtain ⟨index', hindex⟩ : ∃ i, i = index + (c :: cs).length := ⟨_, rfl⟩
  rw [marksFrom_append h.inside, ← hindex]
  have hmarks : marksFrom (line + 1) 2 (index' + 3) ((d :: ds) ++ text) =
      ⟨d, line + 1, 2, index' + 3⟩ :: marksFrom (line + 1) 3 (index' + 4) (ds ++ text) :=
    marksFrom_cons hd (line + 1) 2 (index' + 3) (ds ++ text)
  have hbreak (column : Nat) :
      marksFrom line column index' ('\n' :: ' ' :: ' ' :: ((d :: ds) ++ text)) =
        ⟨'\n', line, column, index'⟩ ::
          ([⟨' ', line + 1, 0, index' + 1⟩, ⟨' ', line + 1, 1, index' + 2⟩] ++
            marksFrom (line + 1) 2 (index' + 3) ((d :: ds) ++ text)) := rfl
  rw [hbreak, hmarks]
  have hd' := hd.notBlank
  exact Scanner.next_word h (Plain.ends_break rfl _ (by simp) ⟨hd'.1, hd'.2.1⟩ hnext) hmargin
    (.inl hcolumn)

/-- What of a message is before its content, and the key of its content. -/
def roleLine (role text : List Char) : List Char :=
  roleKey ++ ':' :: ' ' :: (role ++ '\n' :: ' ' :: ' ' :: (contentKey ++ text))

theorem steps_roleLine {tokens : List Token} {count : Nat} {outer : List Nat}
    (hrole : IsWord role) (line index : Nat) (text : List Char) :
    Steps 3 (inBlock tokens count 1 outer true none)
      (marksFrom line 2 index (roleLine role text))
      (inBlock (.scalar role .plain :: .value :: .scalar roleKey .plain :: .key ::
        .blockMappingStart :: tokens) (count + 5) 3 (1 :: outer) true none)
      (marksFrom (line + 1) 2 (index + 6 + role.length + 3) (contentKey ++ text)) := by
  obtain ⟨rest, hrest⟩ : ∃ cs, cs = role ++ '\n' :: ' ' :: ' ' :: (contentKey ++ text) := ⟨_, rfl⟩
  have hkey : Steps 2 (inBlock tokens count 1 outer true none)
      (marksFrom line 2 index (roleKey ++ ':' :: ' ' :: rest))
      (inBlock (.value :: .scalar roleKey .plain :: .key :: .blockMappingStart :: tokens) (count + 4)
        3 (1 :: outer) false none)
      (marksFrom line 7 (index + 5) (' ' :: rest)) :=
    Scanner.steps_key isKey_roleKey (by decide) rfl
  have hvalue : Steps 1
      (inBlock (.value :: .scalar roleKey .plain :: .key :: .blockMappingStart :: tokens) (count + 4)
        3 (1 :: outer) false none)
      (marksFrom line 8 (index + 6) rest)
      (inBlock (.scalar role .plain :: .value :: .scalar roleKey .plain :: .key ::
        .blockMappingStart :: tokens) (count + 5) 3 (1 :: outer) true none)
      (marksFrom (line + 1) 2 (index + 6 + role.length + 3) (contentKey ++ text)) := by
    rw [hrest]
    exact steps_wordBeforeLine hrole isKey_contentKey.word (by decide) (by decide) (by decide)
  have hspace : marksFrom line 7 (index + 5) (' ' :: rest) =
      ⟨' ', line, 7, index + 5⟩ :: marksFrom line 8 (index + 6) rest := rfl
  intro fuel
  have hfirst := hkey (fuel + 1)
  rw [hspace, Scanner.run_space rfl, hvalue fuel, hrest] at hfirst
  exact hfirst

/-- A list of messages up to its first item. -/
theorem steps_messagesLine (text : List Char) :
    Steps 3 {} (marksFrom 0 0 0 (messagesKey ++ ':' :: '\n' :: '-' :: ' ' :: text))
      (inBlock [.blockEntry, .value, .scalar messagesKey .plain, .key, .blockMappingStart] 5 1 [0] true
        none) (marksFrom 1 1 11 (' ' :: text)) := by
  have hkey : Steps 2 {} (marksFrom 0 0 0 (messagesKey ++ ':' :: '\n' :: '-' :: ' ' :: text))
      (inBlock [.value, .scalar messagesKey .plain, .key, .blockMappingStart] 4 1 [0] false none)
      (marksFrom 0 9 9 ('\n' :: '-' :: ' ' :: text)) :=
    Scanner.steps_key isKey_messagesKey (Nat.zero_le 1) rfl
  have hhyphen : Steps 1
      (inBlock [.value, .scalar messagesKey .plain, .key, .blockMappingStart] 4 1 [0] true none)
      (⟨'-', 1, 0, 10⟩ :: marksFrom 1 1 11 (' ' :: text))
      (inBlock [.blockEntry, .value, .scalar messagesKey .plain, .key, .blockMappingStart] 5 1 [0] true
        none) (marksFrom 1 1 11 (' ' :: text)) :=
    Scanner.next_hyphen rfl rfl rfl
  have hbreak : marksFrom 0 9 9 ('\n' :: '-' :: ' ' :: text) =
      ⟨'\n', 0, 9, 9⟩ :: ⟨'-', 1, 0, 10⟩ :: marksFrom 1 1 11 (' ' :: text) := rfl
  intro fuel
  have hfirst := hkey (fuel + 1)
  rw [hbreak, Scanner.run_lineBreak rfl, hhyphen fuel] at hfirst
  exact hfirst

theorem tokens?_messageText (hrole : IsWord role) (hw : IsWord w) (hending : IsEnding ending) :
    tokens? (messageText role w ending) = some (messageTokens role w) := by
  obtain ⟨content, hcontent⟩ : ∃ cs, cs = ':' :: ' ' :: (w ++ ending) := ⟨_, rfl⟩
  have htext : messageText role w ending =
      messagesKey ++ ':' :: '\n' :: '-' :: ' ' :: roleLine role content := by
    rw [messageText, roleLine, hcontent]
  apply tokens?_of_run 10 (isAllowed_messageText hrole hw hending)
  · have hlength : (marksFrom 0 0 0 (messageText role w ending)).length = messagesKey.length + (1 + 1 +
        (marksFrom 1 0 10 ('-' :: ' ' :: roleLine role content)).length) := by
      rw [htext, length_marksFrom_append isKey_messagesKey.word, Nat.add_comm (1 + 1)]
      rfl
    have hkey : messagesKey.length = 8 := rfl
    omega
  · intro fuel
    have hitem : marksFrom 1 1 11 (' ' :: roleLine role content) =
        ⟨' ', 1, 1, 11⟩ :: marksFrom 1 2 12 (roleLine role content) := rfl
    have hlast (index : Nat) : Scanner.run (fuel + 4)
        (inBlock [.scalar role .plain, .value, .scalar roleKey .plain, .key, .blockMappingStart,
          .blockEntry, .value, .scalar messagesKey .plain, .key, .blockMappingStart] 10 3 [1, 0] true
          none) (marksFrom 2 2 index (contentKey ++ content)) = some (messageTokens role w) := by
      rw [hcontent]
      exact run_lastEntry isKey_contentKey hw hending (by decide) fuel rfl
    have hfirst := steps_messagesLine (roleLine role content) (fuel + 7)
    rw [hitem, Scanner.run_space rfl, steps_roleLine hrole 1 12 content (fuel + 4), hlast] at hfirst
    rw [htext]
    exact hfirst

/-! ## The trees -/

def Tree.plain (w : List Char) : Tree :=
  .scalar {} w .plain

def entryTree (name w : List Char) : Tree :=
  .mapping {} [(.plain name, .plain w)]

def messageTree (role w : List Char) : Tree :=
  .mapping {} [(.plain roleKey, .plain role), (.plain contentKey, .plain w)]

def messagesTree (role w : List Char) : Tree :=
  .mapping {} [(.plain messagesKey, .sequence {} [messageTree role w])]

theorem ofText?_entryText (hname : IsKey name) (hw : IsWord w) (hending : IsEnding ending) :
    Document.ofText? (String.ofList (entryText name w ending)) =
      some (.ofRoot (some (entryTree name w))) := by
  rw [Document.ofText?, String.toList_ofList, tokens?_entryText hname hw hending]
  rfl

theorem ofText?_messageText (hrole : IsWord role) (hw : IsWord w) (hending : IsEnding ending) :
    Document.ofText? (String.ofList (messageText role w ending)) =
      some (.ofRoot (some (messagesTree role w))) := by
  rw [Document.ofText?, String.toList_ofList, tokens?_messageText hrole hw hending]
  rfl

section Reading

open Decoder

variable {d : Document} {k v : Value}

theorem reads_value_plain (hv : Decode.plainValue w = some v) (strictness : Decode.Strictness)
    (depth : Nat) : Reads (Decode.value d strictness depth (.plain w)) 0 (some v) := by
  have hscalar : Reads (Decode.scalar strictness {} w .plain) 0 (some v) := by
    rw [← hv]
    exact reads_lift _
  exact reads_value_scalar rfl hscalar

theorem reads_fields_plain (entries : List (List Char × Tree)) :
    Reads (Decode.fields d (.mapping {} (entries.map fun e => (.plain e.1, e.2)))) 0
      (some (entries.map fun e => (String.ofList e.1, e.2))) := by
  obtain ⟨pairs, hpairs⟩ : ∃ es, es = entries.map fun e => (Tree.plain e.1, e.2) := ⟨_, rfl⟩
  have hplain : ∀ e ∈ pairs, e.1.aliases = 0 ∧ d.text? e.1 = some ((d.text? e.1).getD "") := by
    intro e he
    rw [hpairs] at he
    obtain ⟨e', -, rfl⟩ := List.mem_map.mp he
    exact ⟨rfl, rfl⟩
  have hnames : (pairs.map fun e => ((d.text? e.1).getD "", e.2)) =
      entries.map fun e => (String.ofList e.1, e.2) := by
    rw [hpairs, List.map_map]
    rfl
  have hread := reads_fields (p := {}) fun e he => (hplain e he).2
  rw [hnames, total_eq_zero fun e he => (hplain e he).1, hpairs] at hread
  exact hread

theorem entries?_entryTree (hname : Decode.plainValue name = some k)
    (hv : Decode.plainValue w = some v) :
    (Document.ofRoot (some (entryTree name w))).entries? = some [(k, v)] := by
  obtain ⟨d, hd⟩ : ∃ d, d = Document.ofRoot (some (entryTree name w)) := ⟨_, rfl⟩
  have hroot : d.rootOrBlank = entryTree name w := by
    rw [hd]
    rfl
  have hpairs : Reads (Decode.pairs d (entryTree name w)) 0 (some [(.plain name, .plain w)]) := by
    unfold Decode.pairs
    exact (reads_node rfl).ending (reads_pure _)
  have hentry : Reads (do
      let k ← Decode.value d Decode.standard (Decode.depthLimit - 1) (.plain name)
      Decode.addEntry Decode.standard [] k
        (Decode.value d Decode.standard (Decode.depthLimit - 1) (.plain w))) 0 (some [(k, v)]) :=
    (reads_value_plain hname _ _).ending ((reads_value_plain hv _ _).ending (reads_pure _))
  have hentries : Reads (Decode.entries d Decode.standard (Decode.depthLimit - 1)
      [(.plain name, .plain w)]) 0 (some [(k, v)]) := by
    unfold Decode.entries
    exact (hentry.ending (reads_pure _)).ending (reads_pure _)
  have hread : Reads (do
      Decode.entries d Decode.standard (Decode.depthLimit - 1) (← Decode.pairs d d.rootOrBlank)) 0
        (some [(k, v)]) := by
    rw [hroot]
    exact hpairs.ending hentries
  rw [← hd, Document.entries?, Document.decode_of_reads hread, if_pos (Nat.zero_le _)]

end Reading

end PromptRunner.Yaml
