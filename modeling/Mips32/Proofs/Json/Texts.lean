import Mips32.Json.Value
import Mips32.Proofs.Json.Lexemes

/-! The grammar of JSON texts: which characters write a value (`TextOf`). A text has a value exactly
when its lexemes are those of the value (`lexemes_eq_toLexemes_iff`), so it has at most one value
(`TextOf.unique`), and the compact text of a value is one of its texts (`textOf_compact`). -/
namespace Mips32.Json

/-! ### The grammar -/

mutual

/-- The characters write the value, without blanks around it. -/
inductive Written : Json → List Char → Prop
  | null : Written .null ['n', 'u', 'l', 'l']
  | true : Written (.bool true) ['t', 'r', 'u', 'e']
  | false : Written (.bool false) ['f', 'a', 'l', 's', 'e']
  | number {n : Numeral} {cs : List Char} : n.Written cs → Written (.number n) cs
  | string {us : List TextUnit} {cs : List Char} : TextUnit.BodyWritten us cs →
      Written (.string us) ('"' :: cs ++ ['"'])
  | emptyArray {ws : List Char} : Blank ws → Written (.array []) ('[' :: (ws ++ [']']))
  | array {items : List Json} {cs : List Char} : ItemsWritten items cs →
      Written (.array items) ('[' :: (cs ++ [']']))
  | emptyObject {ws : List Char} : Blank ws → Written (.object []) ('\x7b' :: (ws ++ ['\x7d']))
  | object {members : List (List TextUnit × Json)} {cs : List Char} : MembersWritten members cs →
      Written (.object members) ('\x7b' :: (cs ++ ['\x7d']))

/-- The characters write the value, with blanks around it. -/
inductive TextOf : Json → List Char → Prop
  | padded {v : Json} {before cs after : List Char} : Blank before → Written v cs → Blank after →
      TextOf v (before ++ (cs ++ after))

/-- Items between commas. -/
inductive ItemsWritten : List Json → List Char → Prop
  | last {v : Json} {cs : List Char} : TextOf v cs → ItemsWritten [v] cs
  | more {v : Json} {vs : List Json} {cs rest : List Char} : TextOf v cs → ItemsWritten vs rest →
      ItemsWritten (v :: vs) (cs ++ ',' :: rest)

/-- A name, a colon and a value. -/
inductive MemberWritten : List TextUnit × Json → List Char → Prop
  | named {us : List TextUnit} {v : Json} {before name after cs : List Char} : Blank before →
      TextUnit.BodyWritten us name → Blank after → TextOf v cs →
      MemberWritten (us, v) (before ++ ('"' :: name ++ ['"'] ++ (after ++ ':' :: cs)))

/-- Members between commas. -/
inductive MembersWritten : List (List TextUnit × Json) → List Char → Prop
  | last {m : List TextUnit × Json} {cs : List Char} : MemberWritten m cs → MembersWritten [m] cs
  | more {m : List TextUnit × Json} {ms : List (List TextUnit × Json)} {cs rest : List Char} :
      MemberWritten m cs → MembersWritten ms rest → MembersWritten (m :: ms) (cs ++ ',' :: rest)

end

/-! ### Lexemes of values -/

theorem itemLexemes_cons (v : Json) (vs : List Json) :
    itemLexemes (v :: vs) = v.toLexemes ++ vs.flatMap fun w => .comma :: w.toLexemes := by
  induction vs generalizing v with
  | nil => simp [itemLexemes]
  | cons w vs ih => simp [itemLexemes, ih w]

theorem memberLexemes_cons (m : List TextUnit × Json) (ms : List (List TextUnit × Json)) :
    memberLexemes (m :: ms) = .string m.1 :: .colon :: m.2.toLexemes ++
      ms.flatMap fun n => .comma :: .string n.1 :: .colon :: n.2.toLexemes := by
  induction ms generalizing m with
  | nil => simp [memberLexemes]
  | cons n ms ih => simp [memberLexemes, ih n]

/-- The items go on after a comma. -/
theorem itemLexemes_more (v : Json) {vs : List Json} (h : vs ≠ []) :
    itemLexemes (v :: vs) = v.toLexemes ++ .comma :: itemLexemes vs := by
  cases vs with
  | nil => contradiction
  | cons w vs => rw [itemLexemes]

theorem memberLexemes_more (m : List TextUnit × Json) {ms : List (List TextUnit × Json)}
    (h : ms ≠ []) :
    memberLexemes (m :: ms) =
      .string m.1 :: .colon :: m.2.toLexemes ++ .comma :: memberLexemes ms := by
  cases ms with
  | nil => contradiction
  | cons n ms => rw [memberLexemes]

theorem ItemsWritten.ne_nil {vs : List Json} {cs : List Char} (h : ItemsWritten vs cs) : vs ≠ [] := by
  cases h <;> simp

theorem MembersWritten.ne_nil {ms : List (List TextUnit × Json)} {cs : List Char}
    (h : MembersWritten ms cs) : ms ≠ [] := by
  cases h <;> simp

/-! ### From texts to lexemes -/

/-- A lexeme that is not a numeral is found whatever follows it. -/
theorem lexemes_word {l : Lexeme} {text : List Char} (h : l.Written text) (word : ∀ n, l ≠ .number n)
    (rest : List Char) : lexemes (text ++ rest) = l :: lexemes rest := by
  have stop : l.Stops rest := fun n numeral => absurd numeral (word n)
  exact lexemes_append (fun _ => nofun : Blank []) h stop

theorem lexemes_mark {l : Lexeme} {c : Char} (h : l.Written [c]) (mark : ∀ n, l ≠ .number n)
    (rest : List Char) : lexemes (c :: rest) = l :: lexemes rest :=
  lexemes_word h mark rest

mutual

theorem lexemes_written {v : Json} {cs : List Char} :
    Written v cs → ∀ {rest : List Char}, Numeral.Stops rest →
      lexemes (cs ++ rest) = v.toLexemes ++ lexemes rest
  | .null, rest, _ => lexemes_word .null (by simp) rest
  | .true, rest, _ => lexemes_word .true (by simp) rest
  | .false, rest, _ => lexemes_word .false (by simp) rest
  | @Written.number n _ written, rest, stop => by
    have stops : (Lexeme.number n).Stops rest := fun m same => by cases same; exact stop
    exact lexemes_append (fun _ => nofun : Blank []) (.number written) stops
  | .string written, rest, _ => lexemes_word (.string written) (by simp) rest
  | .emptyArray blank, rest, _ => by
    rw [List.cons_append, List.append_assoc, List.singleton_append,
      lexemes_mark .beginArray (by simp), lexemes_blank_append blank,
      lexemes_mark .endArray (by simp)]
    rfl
  | .array items, rest, _ => by
    rw [List.cons_append, List.append_assoc, List.singleton_append,
      lexemes_mark .beginArray (by simp), lexemes_items items]
    simp [toLexemes]
  | .emptyObject blank, rest, _ => by
    rw [List.cons_append, List.append_assoc, List.singleton_append,
      lexemes_mark .beginObject (by simp), lexemes_blank_append blank,
      lexemes_mark .endObject (by simp)]
    rfl
  | .object members, rest, _ => by
    rw [List.cons_append, List.append_assoc, List.singleton_append,
      lexemes_mark .beginObject (by simp), lexemes_members members]
    simp [toLexemes]

theorem lexemes_textOf {v : Json} {cs : List Char} :
    TextOf v cs → ∀ {rest : List Char}, Numeral.Stops rest →
      lexemes (cs ++ rest) = v.toLexemes ++ lexemes rest
  | .padded before written after, rest, stop => by
    rw [List.append_assoc, List.append_assoc, lexemes_blank_append before,
      lexemes_written written (stops_of_blank_append after stop), lexemes_blank_append after]

theorem lexemes_items {vs : List Json} {cs : List Char} :
    ItemsWritten vs cs → ∀ {rest : List Char},
      lexemes (cs ++ ']' :: rest) = itemLexemes vs ++ .closing .array :: lexemes rest
  | .last text, rest => by
    rw [lexemes_textOf text (stops_cons (by simp) _), lexemes_mark .endArray (by simp), itemLexemes]
  | .more text items, rest => by
    rw [List.append_assoc, List.cons_append, lexemes_textOf text (stops_cons (by simp) _),
      lexemes_mark .comma (by simp), lexemes_items items, itemLexemes_more _ items.ne_nil,
      List.append_assoc, List.cons_append]

theorem lexemes_member {m : List TextUnit × Json} {cs : List Char} :
    MemberWritten m cs → ∀ {rest : List Char}, Numeral.Stops rest →
      lexemes (cs ++ rest) = .string m.1 :: .colon :: m.2.toLexemes ++ lexemes rest
  | .named before name after text, rest, stop => by
    rw [List.append_assoc, List.append_assoc, lexemes_append before (.string name) nofun,
      List.append_assoc, lexemes_blank_append after, List.cons_append,
      lexemes_mark .colon (by simp), lexemes_textOf text stop]
    rfl

theorem lexemes_members {ms : List (List TextUnit × Json)} {cs : List Char} :
    MembersWritten ms cs → ∀ {rest : List Char},
      lexemes (cs ++ '\x7d' :: rest) = memberLexemes ms ++ .closing .object :: lexemes rest
  | .last member, rest => by
    rw [lexemes_member member (stops_cons (by simp) _), lexemes_mark .endObject (by simp),
      memberLexemes]
  | .more member members, rest => by
    rw [List.append_assoc, List.cons_append, lexemes_member member (stops_cons (by simp) _),
      lexemes_mark .comma (by simp), lexemes_members members, memberLexemes_more _ members.ne_nil]
    simp

end

/-! ### From lexemes to texts -/

/-- A mark among the lexemes of a text stands in the text, behind blanks. -/
theorem mark_of_lexemes {l : Lexeme} {c : Char} {ls : List Lexeme} {cs : List Char}
    (h : lexemes cs = l :: ls) (sound : ∀ d, l ≠ .defect d) (mark : ∀ text, l.Written text → text = [c]) :
    ∃ ws rest, Blank ws ∧ cs = ws ++ c :: rest ∧ lexemes rest = ls := by
  obtain ⟨ws, text, rest, blank, written, rfl, after⟩ := written_of_lexemes h sound
  obtain rfl := mark text written
  exact ⟨ws, rest, blank, rfl, after⟩

theorem comma_of_lexemes {ls : List Lexeme} {cs : List Char} (h : lexemes cs = .comma :: ls) :
    ∃ ws rest, Blank ws ∧ cs = ws ++ ',' :: rest ∧ lexemes rest = ls :=
  mark_of_lexemes h (by simp) (by rintro _ ⟨⟩; rfl)

theorem colon_of_lexemes {ls : List Lexeme} {cs : List Char} (h : lexemes cs = .colon :: ls) :
    ∃ ws rest, Blank ws ∧ cs = ws ++ ':' :: rest ∧ lexemes rest = ls :=
  mark_of_lexemes h (by simp) (by rintro _ ⟨⟩; rfl)

theorem endArray_of_lexemes {ls : List Lexeme} {cs : List Char}
    (h : lexemes cs = .closing .array :: ls) :
    ∃ ws rest, Blank ws ∧ cs = ws ++ ']' :: rest ∧ lexemes rest = ls :=
  mark_of_lexemes h (by simp) (by rintro _ ⟨⟩; rfl)

theorem endObject_of_lexemes {ls : List Lexeme} {cs : List Char}
    (h : lexemes cs = .closing .object :: ls) :
    ∃ ws rest, Blank ws ∧ cs = ws ++ '\x7d' :: rest ∧ lexemes rest = ls :=
  mark_of_lexemes h (by simp) (by rintro _ ⟨⟩; rfl)

/-- A name and a colon among the lexemes of a text start a member, whatever the text of its value
turns out to be. -/
theorem memberWritten_start {us : List TextUnit} {ls : List Lexeme} {cs : List Char}
    (h : lexemes cs = .string us :: .colon :: ls) :
    ∃ head tail, cs = head ++ tail ∧ lexemes tail = ls ∧
      ∀ v text, TextOf v text → MemberWritten (us, v) (head ++ text) := by
  obtain ⟨before, name, tail, blank, written, rfl, next⟩ := written_of_lexemes h (by simp)
  obtain ⟨gap, rest, space, rfl, after⟩ := colon_of_lexemes next
  cases written with
  | @string _ body named =>
    refine ⟨before ++ ('"' :: body ++ ['"'] ++ (gap ++ [':'])), rest, by simp, after, ?_⟩
    intro v text value
    simpa using MemberWritten.named blank named space value

mutual

theorem written_of_toLexemes : ∀ (v : Json) {cs : List Char} {ls : List Lexeme},
    lexemes cs = v.toLexemes ++ ls →
      ∃ ws text rest, Blank ws ∧ Written v text ∧ cs = ws ++ (text ++ rest) ∧ lexemes rest = ls
  | .null, _, _, h => by
    obtain ⟨ws, text, rest, blank, ⟨⟩, rfl, after⟩ := written_of_lexemes h (by simp)
    exact ⟨ws, _, rest, blank, .null, rfl, after⟩
  | .bool b, _, _, h => by
    obtain ⟨ws, text, rest, blank, written, rfl, after⟩ := written_of_lexemes h (by simp)
    cases written with
    | true => exact ⟨ws, _, rest, blank, .true, rfl, after⟩
    | false => exact ⟨ws, _, rest, blank, .false, rfl, after⟩
  | .number n, _, _, h => by
    obtain ⟨ws, text, rest, blank, written, rfl, after⟩ := written_of_lexemes h (by simp)
    cases written with
    | number numeral => exact ⟨ws, text, rest, blank, .number numeral, rfl, after⟩
  | .string us, _, _, h => by
    obtain ⟨ws, text, rest, blank, written, rfl, after⟩ := written_of_lexemes h (by simp)
    cases written with
    | string body => exact ⟨ws, _, rest, blank, .string body, rfl, after⟩
  | .array [], _, _, h => by
    obtain ⟨ws, text, inner, blank, ⟨⟩, rfl, tail⟩ := written_of_lexemes h (by simp)
    obtain ⟨inside, rest, within, rfl, after⟩ := endArray_of_lexemes tail
    exact ⟨ws, _, rest, blank, .emptyArray within, by simp, after⟩
  | .array (v :: vs), _, _, h => by
    rw [toLexemes, List.append_assoc] at h
    obtain ⟨ws, text, inner, blank, ⟨⟩, rfl, tail⟩ := written_of_lexemes h (by simp)
    obtain ⟨text, rest, items, rfl, after⟩ := itemsWritten_of_itemLexemes v vs tail
    exact ⟨ws, _, rest, blank, .array items, by simp, after⟩
  | .object [], _, _, h => by
    obtain ⟨ws, text, inner, blank, ⟨⟩, rfl, tail⟩ := written_of_lexemes h (by simp)
    obtain ⟨inside, rest, within, rfl, after⟩ := endObject_of_lexemes tail
    exact ⟨ws, _, rest, blank, .emptyObject within, by simp, after⟩
  | .object (m :: ms), _, _, h => by
    rw [toLexemes, List.append_assoc] at h
    obtain ⟨ws, text, inner, blank, ⟨⟩, rfl, tail⟩ := written_of_lexemes h (by simp)
    obtain ⟨text, rest, members, rfl, after⟩ := membersWritten_of_memberLexemes m ms tail
    exact ⟨ws, _, rest, blank, .object members, by simp, after⟩
termination_by v => sizeOf v

theorem itemsWritten_of_itemLexemes : ∀ (v : Json) (vs : List Json) {cs : List Char} {ls : List Lexeme},
    lexemes cs = itemLexemes (v :: vs) ++ .closing .array :: ls →
      ∃ text rest, ItemsWritten (v :: vs) text ∧ cs = text ++ ']' :: rest ∧ lexemes rest = ls
  | v, [], _, _, h => by
    rw [itemLexemes] at h
    obtain ⟨before, text, tail, blank, written, rfl, next⟩ := written_of_toLexemes v h
    obtain ⟨ws, rest, gap, rfl, after⟩ := endArray_of_lexemes next
    exact ⟨_, rest, .last (.padded blank written gap), by simp, after⟩
  | v, w :: vs, _, _, h => by
    rw [itemLexemes, List.append_assoc] at h
    obtain ⟨before, text, tail, blank, written, rfl, next⟩ := written_of_toLexemes v h
    obtain ⟨ws, more, gap, rfl, following⟩ := comma_of_lexemes next
    obtain ⟨others, rest, items, rfl, after⟩ := itemsWritten_of_itemLexemes w vs following
    exact ⟨_, rest, .more (.padded blank written gap) items, by simp, after⟩
termination_by v vs => sizeOf (v :: vs)

theorem membersWritten_of_memberLexemes : ∀ (m : List TextUnit × Json)
    (ms : List (List TextUnit × Json)) {cs : List Char} {ls : List Lexeme},
    lexemes cs = memberLexemes (m :: ms) ++ .closing .object :: ls →
      ∃ text rest, MembersWritten (m :: ms) text ∧ cs = text ++ '\x7d' :: rest ∧ lexemes rest = ls
  | (us, v), [], _, _, h => by
    rw [memberLexemes, List.cons_append, List.cons_append] at h
    obtain ⟨head, tail, rfl, body, named⟩ := memberWritten_start h
    obtain ⟨front, text, more, ahead, written, rfl, next⟩ := written_of_toLexemes v body
    obtain ⟨ws, rest, behind, rfl, after⟩ := endObject_of_lexemes next
    exact ⟨_, rest, .last (named v _ (.padded ahead written behind)), by simp, after⟩
  | (us, v), m :: ms, _, _, h => by
    rw [memberLexemes, List.append_assoc, List.cons_append, List.cons_append] at h
    obtain ⟨head, tail, rfl, body, named⟩ := memberWritten_start h
    obtain ⟨front, text, more, ahead, written, rfl, next⟩ := written_of_toLexemes v body
    obtain ⟨ws, more, behind, rfl, following⟩ := comma_of_lexemes next
    obtain ⟨others, rest, members, rfl, after⟩ := membersWritten_of_memberLexemes m ms following
    exact ⟨_, rest, .more (named v _ (.padded ahead written behind)) members, by simp, after⟩
termination_by m ms => sizeOf (m :: ms)

end

/-! ### One value for a text -/

/-- No value starts with the end of a container. -/
theorem toLexemes_ne_closing (v : Json) (c : Container) (ls ls' : List Lexeme) :
    v.toLexemes ++ ls ≠ .closing c :: ls' := by
  cases v <;> simp [toLexemes]

/-- The first of the items takes a comma like the others, unless there is none. -/
theorem moreItems_of_items {vs ws : List Json} {ls ls' : List Lexeme}
    (h : itemLexemes vs ++ .closing .array :: ls = itemLexemes ws ++ .closing .array :: ls') :
    (vs.flatMap fun v => .comma :: v.toLexemes) ++ .closing .array :: ls =
      (ws.flatMap fun w => .comma :: w.toLexemes) ++ .closing .array :: ls' := by
  match vs, ws with
  | [], [] => exact h
  | [], w :: ws =>
    rw [itemLexemes_cons, List.append_assoc] at h
    exact absurd h.symm (toLexemes_ne_closing w .array _ _)
  | v :: vs, [] =>
    rw [itemLexemes_cons, List.append_assoc] at h
    exact absurd h (toLexemes_ne_closing v .array _ _)
  | v :: vs, w :: ws =>
    rw [itemLexemes_cons, itemLexemes_cons] at h
    exact congrArg (.comma :: ·) h

theorem moreMembers_of_members {ms ns : List (List TextUnit × Json)} {ls ls' : List Lexeme}
    (h : memberLexemes ms ++ .closing .object :: ls = memberLexemes ns ++ .closing .object :: ls') :
    (ms.flatMap fun m => .comma :: .string m.1 :: .colon :: m.2.toLexemes) ++
        .closing .object :: ls =
      (ns.flatMap fun n => .comma :: .string n.1 :: .colon :: n.2.toLexemes) ++
        .closing .object :: ls' := by
  match ms, ns with
  | [], [] => exact h
  | [], n :: ns => simp [memberLexemes_cons, memberLexemes] at h
  | m :: ms, [] => simp [memberLexemes_cons, memberLexemes] at h
  | m :: ms, n :: ns =>
    rw [memberLexemes_cons, memberLexemes_cons] at h
    exact congrArg (.comma :: ·) h

mutual

/-- The lexemes of a value end where the value ends. -/
theorem toLexemes_append_inj : ∀ (v w : Json) {ls ls' : List Lexeme},
    v.toLexemes ++ ls = w.toLexemes ++ ls' → v = w ∧ ls = ls'
  | .null, w, _, _, h => by cases w <;> simp_all [toLexemes]
  | .bool b, w, _, _, h => by cases w <;> simp_all [toLexemes]
  | .number n, w, _, _, h => by cases w <;> simp_all [toLexemes]
  | .string us, w, _, _, h => by cases w <;> simp_all [toLexemes]
  | .array vs, w, _, _, h => by
    cases w with
    | array ws =>
      have inside := moreItems_append_inj vs ws (moreItems_of_items (by simpa [toLexemes] using h))
      exact ⟨congrArg _ inside.1, inside.2⟩
    | _ => simp [toLexemes] at h
  | .object ms, w, _, _, h => by
    cases w with
    | object ns =>
      have inside :=
        moreMembers_append_inj ms ns (moreMembers_of_members (by simpa [toLexemes] using h))
      exact ⟨congrArg _ inside.1, inside.2⟩
    | _ => simp [toLexemes] at h

theorem moreItems_append_inj : ∀ (vs ws : List Json) {ls ls' : List Lexeme},
    (vs.flatMap fun v => .comma :: v.toLexemes) ++ .closing .array :: ls =
      (ws.flatMap fun w => .comma :: w.toLexemes) ++ .closing .array :: ls' → vs = ws ∧ ls = ls'
  | [], [], _, _, h => ⟨rfl, (List.cons.inj h).2⟩
  | [], w :: ws, _, _, h => by simp at h
  | v :: vs, [], _, _, h => by simp at h
  | v :: vs, w :: ws, _, _, h => by
    rw [List.flatMap_cons, List.flatMap_cons, List.append_assoc, List.append_assoc] at h
    obtain ⟨rfl, others⟩ := toLexemes_append_inj v w (List.cons.inj h).2
    obtain ⟨rfl, after⟩ := moreItems_append_inj vs ws others
    exact ⟨rfl, after⟩

theorem moreMembers_append_inj : ∀ (ms ns : List (List TextUnit × Json)) {ls ls' : List Lexeme},
    (ms.flatMap fun m => .comma :: .string m.1 :: .colon :: m.2.toLexemes) ++
        .closing .object :: ls =
      (ns.flatMap fun n => .comma :: .string n.1 :: .colon :: n.2.toLexemes) ++
        .closing .object :: ls' → ms = ns ∧ ls = ls'
  | [], [], _, _, h => ⟨rfl, (List.cons.inj h).2⟩
  | [], n :: ns, _, _, h => by simp at h
  | m :: ms, [], _, _, h => by simp at h
  | (us, v) :: ms, (us', w) :: ns, _, _, h => by
    rw [List.flatMap_cons, List.flatMap_cons, List.append_assoc, List.append_assoc] at h
    obtain ⟨name, value⟩ := List.cons.inj (List.cons.inj h).2
    obtain ⟨rfl, others⟩ := toLexemes_append_inj v w (List.cons.inj value).2
    obtain ⟨rfl, after⟩ := moreMembers_append_inj ms ns others
    cases name
    exact ⟨rfl, after⟩

end

/-! ### Texts and lexemes -/

/-- **A text has a value exactly when its lexemes are those of the value.** -/
theorem lexemes_eq_toLexemes_iff {v : Json} {cs : List Char} :
    lexemes cs = v.toLexemes ↔ TextOf v cs := by
  constructor
  · intro h
    obtain ⟨before, text, after, blank, written, rfl, nothing⟩ :=
      written_of_toLexemes v (h.trans (List.append_nil _).symm)
    exact .padded blank written (blank_of_lexemes nothing)
  · intro h
    have stop : Numeral.Stops [] := nofun
    simpa [lexemes_of_blank (fun _ => nofun : Blank [])] using lexemes_textOf h stop

/-- **A text has one value at most.** -/
theorem TextOf.unique {v w : Json} {cs : List Char} (hv : TextOf v cs) (hw : TextOf w cs) : v = w := by
  have same : v.toLexemes = w.toLexemes :=
    (lexemes_eq_toLexemes_iff.mpr hv).symm.trans (lexemes_eq_toLexemes_iff.mpr hw)
  exact (toLexemes_append_inj v w (congrArg (· ++ []) same)).1

/-- Blanks behind a text do not count. -/
theorem TextOf.append_blank {v : Json} {cs ws : List Char} (h : TextOf v cs) (blank : Blank ws) :
    TextOf v (cs ++ ws) := by
  obtain ⟨before, written, after⟩ := h
  rw [List.append_assoc, List.append_assoc]
  exact .padded before written (List.forall_mem_append.mpr ⟨after, blank⟩)

/-! ### Strings -/

/-- The units stand for a name. -/
def Named (us : List TextUnit) (name : String) : Prop := TextUnit.Stand us name.toList

/-- The value is a string that stands for a text. -/
def Says (v : Json) (text : String) : Prop := ∃ us, v = .string us ∧ Named us text

theorem Named.unique {us : List TextUnit} {s t : String} (hs : Named us s) (ht : Named us t) : s = t :=
  String.toList_inj.mp (TextUnit.Stand.unique hs ht)

@[simp] theorem named_units (s : String) : Named (units s) s := TextUnit.stand_chars s.toList

@[simp] theorem says_ofString (s : String) : (ofString s).Says s := ⟨_, rfl, named_units s⟩

/-! ### Compact texts -/

/-- A lexeme of the kind that is written: its numeral is a natural number. -/
def Lexeme.Plain (l : Lexeme) : Prop :=
  (∀ d, l ≠ .defect d) ∧ ∀ n, l = .number n → ∃ k, n = .ofNat k

/-- A value whose numerals are natural numbers. -/
def Plain (v : Json) : Prop := ∀ l ∈ v.toLexemes, l.Plain

theorem Lexeme.Plain.written {l : Lexeme} (h : l.Plain) : l.Written l.text :=
  Lexeme.written_text h.1 fun n numeral => by
    obtain ⟨k, rfl⟩ := h.2 n numeral
    exact Numeral.written_ofNat k

@[simp] theorem plain_null : Plain .null := by simp [Plain, toLexemes, Lexeme.Plain]

@[simp] theorem plain_ofString (s : String) : Plain (.ofString s) := by
  simp [Plain, toLexemes, ofString, Lexeme.Plain]

@[simp] theorem plain_ofNat (n : Nat) : Plain (.ofNat n) := by
  simp [Plain, toLexemes, ofNat, Lexeme.Plain]

theorem plain_object {ms : List (List TextUnit × Json)} (h : ∀ m ∈ ms, Plain m.2) :
    Plain (.object ms) := by
  have member : ∀ m : List TextUnit × Json, Plain m.2 →
      ∀ l ∈ .string m.1 :: .colon :: m.2.toLexemes, l.Plain := fun m value =>
    List.forall_mem_cons.mpr ⟨by simp [Lexeme.Plain],
      List.forall_mem_cons.mpr ⟨by simp [Lexeme.Plain], value⟩⟩
  have inside : ∀ l ∈ memberLexemes ms, l.Plain := by
    cases ms with
    | nil => simp [memberLexemes]
    | cons m ms =>
      obtain ⟨first, others⟩ := List.forall_mem_cons.mp h
      rw [memberLexemes_cons]
      refine List.forall_mem_append.mpr ⟨member m first, fun l hl => ?_⟩
      obtain ⟨n, more, within⟩ := List.mem_flatMap.mp hl
      exact List.forall_mem_cons.mpr ⟨by simp [Lexeme.Plain], member n (others n more)⟩ l within
  rw [Plain, toLexemes, List.forall_mem_append, List.forall_mem_cons, List.forall_mem_singleton]
  exact ⟨⟨by simp [Lexeme.Plain], inside⟩, by simp [Lexeme.Plain]⟩

theorem plain_ofMembers {members : List (String × Json)} (h : ∀ m ∈ members, Plain m.2) :
    Plain (.ofMembers members) :=
  plain_object fun m member => by
    obtain ⟨n, named, rfl⟩ := List.mem_map.mp member
    exact h n named

theorem TextOf.of_written {v : Json} {cs : List Char} (h : Written v cs) : TextOf v cs := by
  simpa using TextOf.padded (fun _ => nofun : Blank []) h (fun _ => nofun : Blank [])

mutual

theorem written_flatMap_text : ∀ v : Json, Plain v → Written v (v.toLexemes.flatMap Lexeme.text)
  | .null, _ => .null
  | .bool true, _ => .true
  | .bool false, _ => .false
  | .number n, plain => by
    cases (plain _ (List.mem_singleton_self _)).written with
    | number written => simpa [toLexemes, Lexeme.text] using .number written
  | .string us, _ => by
    simpa [toLexemes, Lexeme.text] using Written.string (TextUnit.bodyWritten_text us)
  | .array [], _ => .emptyArray (fun _ => nofun)
  | .array (v :: vs), plain => by
    rw [Plain, toLexemes, List.forall_mem_append, List.forall_mem_cons] at plain
    simpa [toLexemes, Lexeme.text] using Written.array (itemsWritten_flatMap_text v vs plain.1.2)
  | .object [], _ => .emptyObject (fun _ => nofun)
  | .object (m :: ms), plain => by
    rw [Plain, toLexemes, List.forall_mem_append, List.forall_mem_cons] at plain
    simpa [toLexemes, Lexeme.text] using Written.object (membersWritten_flatMap_text m ms plain.1.2)
termination_by v => sizeOf v

theorem itemsWritten_flatMap_text : ∀ (v : Json) (vs : List Json),
    (∀ l ∈ itemLexemes (v :: vs), l.Plain) →
      ItemsWritten (v :: vs) ((itemLexemes (v :: vs)).flatMap Lexeme.text)
  | v, [], plain => by
    rw [itemLexemes] at plain ⊢
    exact .last (.of_written (written_flatMap_text v plain))
  | v, w :: vs, plain => by
    rw [itemLexemes, List.forall_mem_append, List.forall_mem_cons] at plain
    rw [itemLexemes, List.flatMap_append]
    exact .more (.of_written (written_flatMap_text v plain.1))
      (itemsWritten_flatMap_text w vs plain.2.2)
termination_by v vs => sizeOf (v :: vs)

theorem membersWritten_flatMap_text : ∀ (m : List TextUnit × Json)
    (ms : List (List TextUnit × Json)), (∀ l ∈ memberLexemes (m :: ms), l.Plain) →
      MembersWritten (m :: ms) ((memberLexemes (m :: ms)).flatMap Lexeme.text)
  | (us, v), [], plain => by
    rw [memberLexemes, List.forall_mem_cons, List.forall_mem_cons] at plain
    have member := MemberWritten.named (fun _ => nofun : Blank []) (TextUnit.bodyWritten_text us)
      (fun _ => nofun : Blank []) (.of_written (written_flatMap_text v plain.2.2))
    simpa [memberLexemes, Lexeme.text] using MembersWritten.last member
  | (us, v), m :: ms, plain => by
    rw [memberLexemes, List.forall_mem_append, List.forall_mem_cons, List.forall_mem_cons,
      List.forall_mem_cons] at plain
    have member := MemberWritten.named (fun _ => nofun : Blank []) (TextUnit.bodyWritten_text us)
      (fun _ => nofun : Blank []) (.of_written (written_flatMap_text v plain.1.2.2))
    simpa [memberLexemes, Lexeme.text] using
      MembersWritten.more member (membersWritten_flatMap_text m ms plain.2.2)
termination_by m ms => sizeOf (m :: ms)

end

/-- **The compact text of a value is one of its texts.** -/
theorem textOf_compact {v : Json} (plain : Plain v) : TextOf v v.compact.toList := by
  rw [compact, String.toList_ofList]
  exact .of_written (written_flatMap_text v plain)

/-- No control below U+0020 is written. -/
theorem compact_visible {v : Json} (plain : Plain v) : ∀ c ∈ v.compact.toList, 0x20 ≤ c.toNat := by
  intro c hc
  rw [compact, String.toList_ofList] at hc
  obtain ⟨l, lexeme, char⟩ := List.mem_flatMap.mp hc
  exact (plain l lexeme).written.visible c char

end Mips32.Json
