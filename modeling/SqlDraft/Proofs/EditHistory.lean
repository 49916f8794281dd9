import SqlDraft.Proofs.Provenance

/-!
# What edits leave

A schema is handed on from one edit to the next, and any draft on the way can lose it.
`Desk.schema_from_edits` tells the schema that is shown from the texts that the draft has had, and
from nothing else.  A session holds little more than that and the rows that were last fetched, so it
makes no difference whether an edit or an answer that is wanted comes first:
`Desk.setDraft_deliver_comm`.
-/

namespace SqlDraft

/-! ## One edit -/

namespace Preview

theorem schemaAfter_of_definition {ls : List Lexeme} {d : Definition}
    (h : Definition.ofLexemes? ls = some d) (previous : Option Schema) :
    schemaAfter ls previous =
      if dropsTable (ls.map Lexeme.token) then none else some (.ofDefinition d) := by
  rw [schemaAfter, schemaFor?, h]

theorem knownSchema?_eq_some_iff {table : String} {previous : Option Schema} {schema : Schema} :
    knownSchema? table previous = some schema ↔
      catalogueSchema? table = some schema ∨
        catalogueSchema? table = none ∧ previous = some schema ∧ schema.describes table = true := by
  unfold knownSchema?
  cases catalogueSchema? table with
  | none => simp
  | some entry => simp

/-- What a draft that defines no table leaves: a schema of the catalogue, or the one before. -/
theorem schemaAfter_eq_some_iff {ls : List Lexeme} (h : Definition.ofLexemes? ls = none)
    {previous : Option Schema} {schema : Schema} :
    schemaAfter ls previous = some schema ↔
      dropsTable (ls.map Lexeme.token) = false ∧ ∃ table, tableReference? ls = some table ∧
        (catalogueSchema? table = some schema ∨ catalogueSchema? table = none ∧
          previous = some schema ∧ schema.describes table = true) := by
  rw [schemaAfter, schemaFor?, h]
  by_cases hdrop : dropsTable (ls.map Lexeme.token) = true
  · simp [hdrop]
  · rw [if_neg hdrop, Option.bind_eq_some_iff]
    simp only [knownSchema?_eq_some_iff, Bool.eq_false_iff.2 hdrop, true_and]

end Preview

theorem ofDefinition_not_mem_catalogue (d : Definition) : Schema.ofDefinition d ∉ catalogue :=
  fun hmem => Origin.noConfusion (origin_of_mem_catalogue hmem)

/-- A table with the schema of one in the catalogue is in the catalogue. -/
theorem catalogueSchema?_ne_none {table : String} {schema : Schema} (hmem : schema ∈ catalogue)
    (hdescribes : schema.describes table = true) : catalogueSchema? table ≠ none := by
  intro hnone
  exact List.find?_eq_none.1 hnone schema hmem hdescribes

/-! ## All edits -/

/-- The text that an event gives to the draft. -/
def Event.edit? : Event → Option String
  | .setDraft text => some text
  | _ => none

/-- The texts that events give to the draft, the last of which it keeps. -/
def edits (events : List Event) : List String :=
  events.filterMap Event.edit?

/-- The schema that drafts leave, one after the other. -/
def schemaOf (drafts : List String) : Option Schema :=
  drafts.foldl (fun schema text => Preview.schemaAfter (lexemes text) schema) none

theorem schemaOf_concat (drafts : List String) (text : String) :
    schemaOf (drafts ++ [text]) = Preview.schemaAfter (lexemes text) (schemaOf drafts) := by
  rw [schemaOf, List.foldl_append]
  rfl

theorem Outline.schema_foldl_step (o : Outline) (events : List Event) :
    (events.foldl step o).schema =
      (edits events).foldl (fun schema text => Preview.schemaAfter (lexemes text) schema)
        o.schema := by
  induction events generalizing o with
  | nil => rfl
  | cons e es ih =>
    rw [List.foldl_cons, ih]
    cases e <;> rfl

/-- Of all that happens to a session, only the edits have a say in the schema that it shows. -/
theorem Desk.schema_after (events : List Event) :
    (new.after events).session.preview.schema = schemaOf (edits events) := by
  have houtline := congrArg Outline.schema (outline_after events)
  rw [Outline.foldl_step_filter, Outline.schema_foldl_step] at houtline
  exact houtline

/-- Whether `text` is the last draft with a definition in it, and `later` are the drafts since. -/
structure LastDefinition (drafts : List String) (d : Definition) (text : String)
    (later : List String) : Prop where
  split : ∃ earlier, drafts = earlier ++ text :: later
  defined : Definition.ofDraft? text = some d
  last : ∀ t ∈ later, Definition.ofDraft? t = none

/-- Whether a definition outlives the drafts since: none of them drops a table, nor does its own,
and each of them refers to the table that it defines, which is not in the catalogue. -/
structure Sticks (d : Definition) (text : String) (later : List String) : Prop where
  keeps : ∀ t ∈ text :: later, dropsTable (tokens t) = false
  refers : ∀ t ∈ later, ∃ table, referencedTable? t = some table ∧
    sameName d.table table = true ∧ catalogueSchema? table = none

/-- Whether the last draft neither drops nor defines a table and refers to one in the catalogue, and
the schema of that one. -/
def Catalogued (drafts : List String) (schema : Schema) : Prop :=
  ∃ text, drafts.getLast? = some text ∧ dropsTable (tokens text) = false ∧
    Definition.ofDraft? text = none ∧
    ∃ table, referencedTable? text = some table ∧ catalogueSchema? table = some schema

theorem sticks_concat {d : Definition} {text t : String} {later : List String} :
    Sticks d text (later ++ [t]) ↔
      Sticks d text later ∧ dropsTable (tokens t) = false ∧
        ∃ table, referencedTable? t = some table ∧ sameName d.table table = true ∧
          catalogueSchema? table = none := by
  constructor
  · rintro ⟨hkeeps, hrefers⟩
    rw [← List.cons_append] at hkeeps
    refine ⟨⟨fun t' ht => hkeeps t' (List.mem_append_left _ ht),
      fun t' ht => hrefers t' (List.mem_append_left _ ht)⟩, ?_, ?_⟩
    · exact hkeeps t (List.mem_append_right _ (List.mem_singleton_self t))
    · exact hrefers t (List.mem_append_right _ (List.mem_singleton_self t))
  · rintro ⟨⟨hkeeps, hrefers⟩, hkeep, hrefer⟩
    refine ⟨fun t' ht => ?_, fun t' ht => ?_⟩
    · rw [← List.cons_append, List.mem_append, List.mem_singleton] at ht
      rcases ht with ht | rfl
      · exact hkeeps t' ht
      · exact hkeep
    · rw [List.mem_append, List.mem_singleton] at ht
      rcases ht with ht | rfl
      · exact hrefers t' ht
      · exact hrefer

theorem schemaOf_eq_ofDefinition_iff {drafts later : List String} {d : Definition} {text : String}
    (h : LastDefinition drafts d text later) :
    schemaOf drafts = some (.ofDefinition d) ↔ Sticks d text later := by
  obtain ⟨⟨earlier, rfl⟩, hdefined, hlast⟩ := h
  induction later using List.reverseRecOn with
  | nil =>
    rw [schemaOf_concat, Preview.schemaAfter_of_definition hdefined]
    change (if dropsTable (tokens text) then none else _) = _ ↔ _
    constructor
    · intro hschema
      refine ⟨fun t ht => ?_, nofun⟩
      obtain rfl := List.mem_singleton.1 ht
      rw [Bool.eq_false_iff]
      intro hdrop
      rw [if_pos hdrop] at hschema
      cases hschema
    · intro hsticks
      rw [hsticks.keeps text (List.mem_singleton_self text)]
      rfl
  | append_singleton later t ih =>
    have hbefore : earlier ++ text :: (later ++ [t]) = (earlier ++ text :: later) ++ [t] := by
      rw [List.append_assoc, List.cons_append]
    have hnone := hlast t (List.mem_append_right _ (List.mem_singleton_self t))
    rw [hbefore, schemaOf_concat, Preview.schemaAfter_eq_some_iff hnone, sticks_concat,
      ← ih fun t' ht => hlast t' (List.mem_append_left _ ht)]
    constructor
    · rintro ⟨hkeeps, table, htable, hentry | ⟨hnone, hbefore, hdescribes⟩⟩
      · exact absurd (mem_catalogue_of_catalogueSchema? hentry)
          (ofDefinition_not_mem_catalogue d)
      · exact ⟨hbefore, hkeeps, table, htable, hdescribes, hnone⟩
    · rintro ⟨hbefore, hkeeps, table, htable, hname, hnone⟩
      exact ⟨hkeeps, table, htable, .inr ⟨hnone, hbefore, hname⟩⟩

theorem schemaOf_eq_entry_iff {drafts : List String} {entry : Schema} (hentry : entry ∈ catalogue) :
    schemaOf drafts = some entry ↔ Catalogued drafts entry := by
  rcases List.eq_nil_or_concat drafts with rfl | ⟨earlier, text, rfl⟩
  · exact ⟨nofun, fun ⟨_, hlast, _⟩ => nomatch hlast⟩
  rw [List.concat_eq_append, schemaOf_concat]
  cases hdefined : Definition.ofDraft? text with
  | some d =>
    -- What a draft defines is no schema of the catalogue.
    rw [Preview.schemaAfter_of_definition hdefined]
    constructor
    · intro hschema
      split at hschema
      · cases hschema
      · obtain rfl := Option.some.inj hschema
        exact absurd hentry (ofDefinition_not_mem_catalogue d)
    · rintro ⟨t, hlast, _, hnone, _⟩
      rw [List.getLast?_concat] at hlast
      obtain rfl := Option.some.inj hlast
      rw [hdefined] at hnone
      cases hnone
  | none =>
    rw [Preview.schemaAfter_eq_some_iff hdefined]
    constructor
    · rintro ⟨hkeeps, table, htable, hfound | ⟨hnone, _, hdescribes⟩⟩
      · exact ⟨text, List.getLast?_concat, hkeeps, hdefined, table, htable, hfound⟩
      · exact absurd hnone (catalogueSchema?_ne_none hentry hdescribes)
    · rintro ⟨t, hlast, hkeeps, _, table, htable, hfound⟩
      rw [List.getLast?_concat] at hlast
      obtain rfl := Option.some.inj hlast
      exact ⟨hkeeps, table, htable, .inl hfound⟩

/-- A schema is that of the last definition or one of the catalogue. -/
theorem exists_of_schemaOf {drafts : List String} {schema : Schema}
    (h : schemaOf drafts = some schema) :
    (∃ d text later, LastDefinition drafts d text later ∧ schema = .ofDefinition d) ∨
      schema ∈ catalogue := by
  induction drafts using List.reverseRecOn with
  | nil => cases h
  | append_singleton earlier t ih =>
    rw [schemaOf_concat] at h
    cases hdefined : Definition.ofDraft? t with
    | some d =>
      rw [Preview.schemaAfter_of_definition hdefined] at h
      split at h
      · cases h
      · exact .inl ⟨d, t, [], ⟨⟨earlier, rfl⟩, hdefined, nofun⟩, (Option.some.inj h).symm⟩
    | none =>
      obtain ⟨_, table, _, hfound | ⟨_, hbefore, _⟩⟩ :=
        (Preview.schemaAfter_eq_some_iff hdefined).1 h
      · exact .inr (mem_catalogue_of_catalogueSchema? hfound)
      · refine (ih hbefore).imp_left ?_
        rintro ⟨d, text, later, ⟨⟨front, rfl⟩, htext, hlast⟩, rfl⟩
        refine ⟨d, text, later ++ [t], ⟨⟨front, ?_⟩, htext, fun t' ht => ?_⟩, rfl⟩
        · rw [List.append_assoc, List.cons_append]
        · rw [List.mem_append, List.mem_singleton] at ht
          rcases ht with ht | rfl
          · exact hlast t' ht
          · exact hdefined

/-- The schema that is shown is that of the last definition as long as it sticks, and otherwise that
of a table of the catalogue as long as the draft refers to one.  In every other case nothing is
shown.  Whatever is fetched, delivered and submitted between the edits has no say in it. -/
theorem Desk.schema_from_edits (events : List Event) :
    let drafts := edits events
    let shown := (new.after events).session.preview
    (∀ d text later, LastDefinition drafts d text later →
      (shown.schema = some (.ofDefinition d) ↔ Sticks d text later)) ∧
    (∀ entry ∈ catalogue, shown.schema = some entry ↔ Catalogued drafts entry) ∧
    ((∀ d text later, LastDefinition drafts d text later → ¬ Sticks d text later) →
      (∀ entry ∈ catalogue, ¬ Catalogued drafts entry) →
        shown.schema = none ∧ shown.rows = []) := by
  intro drafts shown
  have hschema : shown.schema = schemaOf drafts := schema_after events
  refine ⟨fun d text later hlast => ?_, fun entry hentry => ?_, fun hloose hunlisted => ?_⟩
  · rw [hschema]
    exact schemaOf_eq_ofDefinition_iff hlast
  · rw [hschema]
    exact schemaOf_eq_entry_iff hentry
  · have hnone : shown.schema = none := by
      rw [hschema]
      cases hsome : schemaOf drafts with
      | none => rfl
      | some schema =>
        rcases exists_of_schemaOf hsome with ⟨d, text, later, hlast, rfl⟩ | hentry
        · exact absurd ((schemaOf_eq_ofDefinition_iff hlast).1 hsome) (hloose d text later hlast)
        · exact absurd ((schemaOf_eq_entry_iff hentry).1 hsome) (hunlisted schema hentry)
    exact ⟨hnone, (Session.settled_after events).consistent.bare hnone⟩

/-! ## An edit and an answer -/

namespace Session

/-- A settled session holds no more than its outline, what was last fetched, the counter and the
message. -/
theorem Settled.ext {s t : Session} (hs : s.Settled) (ht : t.Settled)
    (houtline : s.outline = t.outline) (hremote : s.remote = t.remote)
    (hissued : s.issued = t.issued) (hmessage : s.message = t.message) : s = t := by
  have hdraft : s.draft = t.draft := congrArg Outline.draft houtline
  have hquestion : s.question = t.question := congrArg Outline.question houtline
  have hroadmap : s.roadmap = t.roadmap := congrArg Outline.roadmap houtline
  have hschema : s.preview.schema = t.preview.schema := congrArg Outline.schema houtline
  have hpreview : s.preview = t.preview := by
    rw [hs.eq_show?, ht.eq_show?, hdraft, hschema, hremote]
  cases s
  cases t
  simp_all only

@[simp] theorem deliver_message (s : Session) (ticket : Ticket) (answer : Answer) :
    (s.deliver ticket answer).2.message = s.message := by
  unfold deliver
  split <;> rfl

end Session

/-- An edit and an answer that is wanted both before the edit and after it come to the same session
in either order. -/
theorem Desk.setDraft_deliver_comm (events : List Event) (text : String) (ticket : Ticket)
    (answer : Answer)
    (hbefore : ((new.after events).session.deliver ticket answer).1 = true)
    (hafter : (((new.after events).session.setDraft text).deliver ticket answer).1 = true) :
    (new.after (events ++ [.deliver ticket answer, .setDraft text])).session =
      (new.after (events ++ [.setDraft text, .deliver ticket answer])).session := by
  apply Session.Settled.ext (Session.settled_after _) (Session.settled_after _)
  · rw [outline_after, outline_after, List.filter_append, List.filter_append]
    rfl
  · rw [after_append, after_append]
    change ((new.after events).session.deliver ticket answer).2.remote =
      (((new.after events).session.setDraft text).deliver ticket answer).2.remote
    rw [Session.remote_deliver, Session.remote_deliver, if_pos hbefore, if_pos hafter]
  · rw [after_append, after_append]
    change ((new.after events).session.deliver ticket answer).2.issued =
      (((new.after events).session.setDraft text).deliver ticket answer).2.issued
    rw [Session.deliver_issued, Session.deliver_issued]
    rfl
  · rw [after_append, after_append]
    change ((new.after events).session.deliver ticket answer).2.message =
      (((new.after events).session.setDraft text).deliver ticket answer).2.message
    rw [Session.deliver_message, Session.deliver_message]
    rfl

/-- Rows of a table that arrive before or after its definition is left for an insertion. -/
theorem Desk.setDraft_deliver_comm_pets :
    let events : List Event := [.setDraft "CREATE TABLE pets (id INT)", .requestSnapshot]
    let answer : Answer := .ok ⟨.success, none, [], [["1"]]⟩
    ((new.after events).session.deliver ⟨1, "pets"⟩ answer).1 = true ∧
    (((new.after events).session.setDraft "INSERT INTO Pets VALUES (2)").deliver
      ⟨1, "pets"⟩ answer).1 = true ∧
    (new.after (events ++ [.deliver ⟨1, "pets"⟩ answer,
      .setDraft "INSERT INTO Pets VALUES (2)"])).session =
    (new.after (events ++ [.setDraft "INSERT INTO Pets VALUES (2)",
      .deliver ⟨1, "pets"⟩ answer])).session := by
  intro events answer
  have hbefore : ((new.after events).session.deliver ⟨1, "pets"⟩ answer).1 = true := by
    decide +kernel
  have hafter : (((new.after events).session.setDraft "INSERT INTO Pets VALUES (2)").deliver
      ⟨1, "pets"⟩ answer).1 = true := by
    decide +kernel
  exact ⟨hbefore, hafter, setDraft_deliver_comm events _ _ answer hbefore hafter⟩

end SqlDraft
