import ExtensionKit.Proofs.Json.Extent

/-!
# How far arrays and objects reach

An array ends at its bracket and an object at its brace. Both are read by a loop over parts with commas
between them (`IsLoop`). Whatever follows the closing character, a loop reads the same up to there, because
every part is followed by white space, a comma or the closing character, which stop a numeral
(`IsLoop.exists_text`). With this the reader of values is local, by induction on the depth that it allows
(`isLocal_readValue`).
-/

namespace ExtensionKit.Json

/-! ## White space between tokens -/

theorem skipSpace_append {spaces : List Char} (h : ∀ c ∈ spaces, isSpace c = true) (cs : List Char) :
    skipSpace (spaces ++ cs) = skipSpace cs :=
  List.dropWhile_append_of_pos h

/-- White space is skipped up to the first character that is none. -/
theorem skipSpace_append_cons {spaces : List Char} (h : ∀ c ∈ spaces, isSpace c = true) {c : Char}
    (hc : isSpace c = false) (rest : List Char) : skipSpace (spaces ++ c :: rest) = c :: rest := by
  rw [skipSpace_append h, skipSpace, List.dropWhile_cons, if_neg (by rw [hc]; decide)]

/-- The white space that a text begins with, and what comes after it. -/
theorem exists_spaces (cs : List Char) :
    ∃ spaces, cs = spaces ++ skipSpace cs ∧ ∀ c ∈ spaces, isSpace c = true :=
  ⟨cs.takeWhile isSpace, List.takeWhile_append_dropWhile.symm, List.all_eq_true.mp List.all_takeWhile⟩

theorem skipSpace_skipSpace (cs : List Char) : skipSpace (skipSpace cs) = skipSpace cs := by
  obtain ⟨spaces, hcs, hspaces⟩ := exists_spaces cs
  have hskip := skipSpace_append hspaces (skipSpace cs)
  rw [← hcs] at hskip
  exact hskip.symm

/-- White space stops a numeral, and so it does with something after it that stops one itself. -/
theorem stops_of_skipSpace {cs : List Char} (h : Stops (skipSpace cs)) : Stops cs := by
  cases cs with
  | nil => exact stops_nil
  | cons c cs =>
    by_cases hc : isSpace c = true
    · rcases isSpace_iff.mp hc with rfl | rfl | rfl | rfl <;> exact stops_cons (by decide) (by decide) cs
    · rwa [skipSpace, List.dropWhile_cons, if_neg hc] at h

/-! ## Parts between commas -/

/-- The next item of an array or member of an object starts after white space, and after a comma with more
white space unless it is the first. -/
inductive Leads : (first : Bool) → (cs start : List Char) → Prop
  | first {cs : List Char} : Leads true cs (skipSpace cs)
  | later {cs rest : List Char} (comma : skipSpace cs = ',' :: rest) : Leads false cs (skipSpace rest)

variable {first : Bool} {cs start : List Char}

/-- What comes before an item or member leads to another one as well. -/
theorem Leads.exists_lead (h : Leads first cs start) :
    ∃ lead, cs = lead ++ start ∧
      ∀ start', skipSpace start' = start' → Leads first (lead ++ start') start' := by
  cases h with
  | first =>
    obtain ⟨spaces, hcs, hspaces⟩ := exists_spaces cs
    refine ⟨spaces, hcs, fun start' hstart' => ?_⟩
    have hlead : Leads true (spaces ++ start') (skipSpace (spaces ++ start')) := .first
    rwa [skipSpace_append hspaces, hstart'] at hlead
  | @later _ rest comma =>
    obtain ⟨spaces, hcs, hspaces⟩ := exists_spaces cs
    obtain ⟨more, hrest, hmore⟩ := exists_spaces rest
    refine ⟨spaces ++ ',' :: more, ?_, fun start' hstart' => ?_⟩
    · rw [List.append_assoc, List.cons_append, ← hrest, ← comma]
      exact hcs
    · have hlead := Leads.later (skipSpace_append_cons hspaces (by decide) (more ++ start'))
      rw [skipSpace_append hmore, hstart'] at hlead
      rwa [List.append_assoc, List.cons_append]

/-- What leads to an item or member that is not the first stops a numeral. -/
theorem Leads.stops (h : Leads false cs start) : Stops cs := by
  cases h with
  | later comma =>
    apply stops_of_skipSpace
    rw [comma]
    exact stops_cons (by decide) (by decide) _

section

variable {part : List Char → Reading α} {next : List Char → Reading β} {r : β × List Char}

/-- A first part that is read after white space. -/
theorem exists_first (hnext : ∀ text, next text = .ok r → ∃ a after, part (skipSpace text) = .ok (a, after))
    (h : next (skipSpace cs) = .ok r) :
    ∃ start a after, Leads true cs start ∧ part start = .ok (a, after) := by
  obtain ⟨a, after, ha⟩ := hnext _ h
  rw [skipSpace_skipSpace] at ha
  exact ⟨_, a, after, .first, ha⟩

/-- A later part that is read after a comma and white space. -/
theorem exists_later (hnext : ∀ text, next text = .ok r → ∃ a after, part (skipSpace text) = .ok (a, after))
    {rest : List Char} (comma : skipSpace cs = ',' :: rest) (h : next rest = .ok r) :
    ∃ start a after, Leads false cs start ∧ part start = .ok (a, after) := by
  obtain ⟨a, after, ha⟩ := hnext _ h
  exact ⟨_, a, after, .later comma, ha⟩

end

/-- A loop that reads parts with commas between them, up to a closing character. It goes on from one state to
the next, and puts each part before what comes of the parts after it. -/
structure IsLoop (close : Char) (part : List Char → Reading α) (next : σ → α → σ) (put : α → β → β)
    (done : σ → β) (loop : Nat → Bool → σ → List Char → Reading β) : Prop where
  /-- the closing character is no white space -/
  token : isSpace close = false
  /-- the closing character stops a numeral -/
  stops : ∀ rest, Stops (close :: rest)
  /-- nothing is read with a bound of zero -/
  exhausted : ∀ first s cs r, loop 0 first s cs ≠ .ok r
  /-- the closing character ends the loop -/
  closed : ∀ {bound first s cs rest}, skipSpace cs = close :: rest →
    loop (bound + 1) first s cs = .ok (done s, rest)
  /-- a part is read, and then those after it -/
  more : ∀ {bound first s cs start a after}, Leads first cs start → part start = .ok (a, after) →
    loop (bound + 1) first s cs =
      (loop bound false (next s a) after).andThen fun b rest => .ok (put a b, rest)
  /-- there is no other way -/
  ways : ∀ {bound first s cs r}, loop (bound + 1) first s cs = .ok r →
    (∃ rest, skipSpace cs = close :: rest) ∨
      ∃ start a after, Leads first cs start ∧ part start = .ok (a, after)

namespace IsLoop

variable {close : Char} {part : List Char → Reading α} {next : σ → α → σ} {put : α → β → β}
  {done : σ → β} {loop : Nat → Bool → σ → List Char → Reading β} {s : σ} {b : β} {rest : List Char}

/-- What a loop goes on with after a part stops a numeral. -/
theorem stops_of_later (hloop : IsLoop close part next put done loop) {bound : Nat} {r : β × List Char}
    (h : loop bound false s cs = .ok r) : Stops cs := by
  cases bound with
  | zero => exact absurd h (hloop.exhausted _ _ _ _)
  | succ bound =>
    rcases hloop.ways h with ⟨rest, hclose⟩ | ⟨start, a, after, hlead, -⟩
    · apply stops_of_skipSpace
      rw [hclose]
      exact hloop.stops rest
    · exact hlead.stops

/-- A loop reads up to the closing character, whatever follows and with any bound that is large enough. -/
theorem exists_text (hloop : IsLoop close part next put done loop) (hlocal : IsLocal part)
    (hpart : ∀ start r, part start = .ok r → start ≠ [] ∧ skipSpace start = start) {bound : Nat}
    (h : loop bound first s cs = .ok (b, rest)) :
    ∃ text, cs = text ++ close :: rest ∧ ∀ bound' after, text.length < bound' →
      loop bound' first s (text ++ close :: after) = .ok (b, after) := by
  induction bound generalizing first s cs b with
  | zero => exact absurd h (hloop.exhausted _ _ _ _)
  | succ bound ih =>
    rcases hloop.ways h with ⟨rest', hclose⟩ | ⟨start, a, between, hlead, ha⟩
    · rw [hloop.closed hclose] at h
      cases h
      obtain ⟨spaces, hcs, hspaces⟩ := exists_spaces cs
      rw [hclose] at hcs
      refine ⟨spaces, hcs, fun bound' after hbound' => ?_⟩
      obtain ⟨n, rfl⟩ : ∃ n, bound' = n + 1 := ⟨bound' - 1, by omega⟩
      exact hloop.closed (skipSpace_append_cons hspaces hloop.token after)
    · rw [hloop.more hlead ha] at h
      obtain ⟨b', rest', hlater, hresult⟩ := Reading.andThen_eq_ok_iff.mp h
      cases hresult
      obtain ⟨text, rfl, htext⟩ := hlocal _ _ _ ha
      obtain ⟨more, rfl, hmore⟩ := ih hlater
      obtain ⟨lead, rfl, hlead'⟩ := hlead.exists_lead
      refine ⟨lead ++ (text ++ more), by simp only [List.append_assoc], fun bound' after hbound' => ?_⟩
      -- a part is not empty, so the bound suffices for the parts after it
      have hlength := List.length_pos_iff.mpr (htext.ne_nil fun r hr => (hpart [] r hr).1 rfl)
      rw [List.length_append, List.length_append] at hbound'
      obtain ⟨n, rfl⟩ : ∃ n, bound' = n + 1 := ⟨bound' - 1, by omega⟩
      have hread := htext (more ++ close :: after)
        (begins_append (hloop.stops_of_later hlater) (hloop.stops after))
      rw [List.append_assoc, List.append_assoc, hloop.more (hlead' _ (hpart _ _ hread).2) hread,
        hmore n after (by omega)]
      rfl

/-- What stands before the closing character, if the bound is the length of the text. -/
theorem exists_inside (hloop : IsLoop close part next put done loop) (hlocal : IsLocal part)
    (hpart : ∀ start r, part start = .ok r → start ≠ [] ∧ skipSpace start = start)
    (h : loop (cs.length + 1) first s cs = .ok (b, rest)) :
    ∃ inside, cs = inside ++ close :: rest ∧ ∀ after,
      loop ((inside ++ close :: after).length + 1) first s (inside ++ close :: after) = .ok (b, after) := by
  obtain ⟨inside, hcs, hinside⟩ := hloop.exists_text hlocal hpart h
  refine ⟨inside, hcs, fun after => hinside _ after ?_⟩
  rw [List.length_append]
  omega

end IsLoop

/-! ## Arrays -/

/-- An item, and what comes after it. -/
theorem readItems_of_leads {item : List Char → Reading Json} (bound : Nat) (hlead : Leads first cs start)
    (hopens : Opens start) :
    readItems item (bound + 1) first cs =
      Reading.andThen (item start) fun value after =>
        Reading.andThen (readItems item bound false after) fun values after =>
          .ok (value :: values, after) := by
  cases hlead with
  | first =>
    rw [← readItems_first bound hopens, readItems, readItems]
    simp only [skipSpace_skipSpace]
  | @later _ rest comma =>
    have hcomma : skipSpace (',' :: skipSpace rest) = ',' :: skipSpace rest := rfl
    rw [← readItems_later bound hopens, readItems, readItems]
    simp only [comma, hcomma, skipSpace_skipSpace, if_neg Bool.false_ne_true]

/-- An array closes, or there is an item. -/
theorem readItems_ways {item : List Char → Reading Json} {bound : Nat} {r : List Json × List Char}
    (h : readItems item (bound + 1) first cs = .ok r) :
    (∃ rest, skipSpace cs = ']' :: rest) ∨
      ∃ start value after, Leads first cs start ∧ item start = .ok (value, after) := by
  rw [readItems.eq_def] at h
  dsimp -zeta only at h
  extract_lets next at h
  have hnext : ∀ text, next text = .ok r → ∃ value after, item (skipSpace text) = .ok (value, after) := by
    intro text htext
    simp only [next] at htext
    split at htext
    · cases htext
    · cases htext
    · obtain ⟨value, after, hitem, -⟩ := Reading.andThen_eq_ok_iff.mp htext
      exact ⟨value, after, hitem⟩
  clear_value next
  split at h
  · cases h
  · next hclose => exact .inl ⟨_, hclose⟩
  · next hcomma =>
    cases first with
    | true => exact .inr (exists_first hnext (hcomma ▸ h))
    | false => exact .inr (exists_later hnext hcomma h)
  · cases first with
    | true => exact .inr (exists_first hnext h)
    | false => cases h

/-- The items of an array are read by a loop up to the bracket. -/
theorem isLoop_readItems (depth : Nat) :
    IsLoop ']' (readValue depth) (fun _ _ => ()) List.cons (fun _ => [])
      (fun bound first (_ : Unit) cs => readItems (readValue depth) bound first cs) where
  token := by decide
  stops := stops_cons (by decide) (by decide)
  exhausted := nofun
  closed := by
    intro bound first _ cs rest hclose
    rw [readItems, hclose]
    rfl
  more := by
    intro bound first _ cs start value after hlead hvalue
    rw [readItems_of_leads bound hlead (opens_of_readValue hvalue), hvalue, Reading.andThen_ok]
  ways := readItems_ways

/-- What is read as a value starts with something, and not with white space. -/
theorem start_of_readValue {depth : Nat} (start : List Char) (r : Json × List Char)
    (h : readValue depth start = .ok r) : start ≠ [] ∧ skipSpace start = start := by
  have hopens := opens_of_readValue h
  refine ⟨?_, skipSpace_of_opens hopens⟩
  obtain ⟨c, rest, rfl, -⟩ := hopens
  exact List.cons_ne_nil c rest

/-! ## Objects -/

theorem exists_of_readMember {item : List Char → Reading Json} {r : (String × Json) × List Char}
    (h : readMember item cs = .ok r) : ∃ text, cs = '"' :: text := by
  rw [readMember.eq_def] at h
  split at h
  · cases h
  · exact ⟨_, rfl⟩
  · cases h
  · cases h

/-- **A member is read alike** whatever follows its value. -/
theorem isLocal_readMember {depth : Nat} (hlocal : IsLocal (readValue depth)) :
    IsLocal (readMember (readValue depth)) := by
  intro cs m rest h
  obtain ⟨quoted, rfl⟩ := exists_of_readMember h
  rw [readMember] at h
  obtain ⟨key, between, hkey, hlater⟩ := Reading.andThen_eq_ok_iff.mp h
  split at hlater
  · cases hlater
  · next more hcolon =>
    obtain ⟨value, after, hvalue, hresult⟩ := Reading.andThen_eq_ok_iff.mp hlater
    cases hresult
    obtain ⟨text, rfl, htext⟩ := isDelimited_readString _ _ _ hkey
    obtain ⟨spaces, hbetween, hspaces⟩ := exists_spaces between
    obtain ⟨spaces', hmore, hspaces'⟩ := exists_spaces more
    obtain ⟨valueText, hvalueText, hreads⟩ := hlocal _ _ _ hvalue
    refine ⟨'"' :: (text ++ (spaces ++ ':' :: (spaces' ++ valueText))), ?_, fun after' hstops => ?_⟩
    · rw [hbetween, hcolon, hmore, hvalueText]
      simp only [List.cons_append, List.append_assoc]
    · have hread := hreads after' hstops
      simp only [List.cons_append, List.append_assoc]
      rw [readMember, htext, Reading.andThen_ok, skipSpace_append_cons hspaces (by decide)]
      simp only [skipSpace_append hspaces', skipSpace_of_opens (opens_of_readValue hread), hread]
      rfl
  · cases hlater

/-- A member, and what comes after it. -/
theorem readMembers_of_leads {item : List Char → Reading Json} (bound : Nat) (ms : Members)
    (hlead : Leads first cs start) {text : List Char} (hquote : start = '"' :: text) :
    readMembers item (bound + 1) first ms cs =
      Reading.andThen (readMember item start) fun m after =>
        readMembers item bound false (ms.insert m.1 m.2) after := by
  cases hlead with
  | first =>
    rw [readMembers]
    simp only [hquote, if_pos]
    rfl
  | later comma =>
    rw [readMembers]
    simp only [comma, if_neg Bool.false_ne_true]

/-- An object closes, or there is a member. -/
theorem readMembers_ways {item : List Char → Reading Json} {bound : Nat} {ms : Members}
    {r : Members × List Char} (h : readMembers item (bound + 1) first ms cs = .ok r) :
    (∃ rest, skipSpace cs = '\x7d' :: rest) ∨
      ∃ start m after, Leads first cs start ∧ readMember item start = .ok (m, after) := by
  rw [readMembers.eq_def] at h
  dsimp -zeta only at h
  extract_lets next at h
  have hnext : ∀ text, next text = .ok r →
      ∃ m after, readMember item (skipSpace text) = .ok (m, after) := by
    intro text htext
    obtain ⟨m, after, hmember, -⟩ := Reading.andThen_eq_ok_iff.mp htext
    exact ⟨m, after, hmember⟩
  clear_value next
  split at h
  · cases h
  · next hclose => exact .inl ⟨_, hclose⟩
  · next hcomma =>
    cases first with
    | true => exact .inr (exists_first hnext (hcomma ▸ h))
    | false => exact .inr (exists_later hnext hcomma h)
  · cases first with
    | true => exact .inr (exists_first hnext h)
    | false => cases h

/-- The members of an object are read by a loop up to the brace. -/
theorem isLoop_readMembers (depth : Nat) :
    IsLoop '\x7d' (readMember (readValue depth)) (fun ms m => ms.insert m.1 m.2) (fun _ ms => ms) id
      (readMembers (readValue depth)) where
  token := by decide
  stops := stops_cons (by decide) (by decide)
  exhausted := nofun
  closed := by
    intro bound first ms cs rest hclose
    rw [readMembers, hclose]
    rfl
  more := by
    intro bound first ms cs start m after hlead hmember
    obtain ⟨text, hquote⟩ := exists_of_readMember hmember
    rw [readMembers_of_leads bound ms hlead hquote, hmember, Reading.andThen_ok]
    cases readMembers (readValue depth) bound false (ms.insert m.1 m.2) after <;> rfl
  ways := readMembers_ways

theorem start_of_readMember {item : List Char → Reading Json} (start : List Char)
    (r : (String × Json) × List Char) (h : readMember item start = .ok r) :
    start ≠ [] ∧ skipSpace start = start := by
  obtain ⟨text, rfl⟩ := exists_of_readMember h
  exact ⟨List.cons_ne_nil _ text, rfl⟩

/-! ## Values -/

/-- A word is read exactly where the text begins with it. -/
theorem readWord_eq_ok_iff {value j : Json} {word rest : List Char} :
    readWord value word cs = .ok (j, rest) ↔ j = value ∧ cs = word ++ rest := by
  induction word generalizing cs with
  | nil =>
    rw [readWord, Except.ok.injEq, Prod.mk.injEq, List.nil_append]
    exact and_congr eq_comm Iff.rfl
  | cons w word ih =>
    cases cs with
    | nil => exact ⟨nofun, fun h => nomatch h.2⟩
    | cons c cs =>
      rw [readWord]
      split
      · next heq => rw [heq, ih, List.cons_append, List.cons.injEq, and_iff_right rfl]
      · next hne => exact ⟨nofun, fun h => absurd (List.cons.inj h.2).1 hne⟩

/-- The inside of an object and what is read from it, whatever follows the brace. -/
theorem exists_of_readValue_object {depth : Nat} (hlocal : ∀ d, depth = d + 1 → IsLocal (readValue d))
    {j : Json} {rest : List Char} (h : readValue depth ('\x7b' :: cs) = .ok (j, rest)) :
    ∃ ms inside, j = .object ms ∧ cs = inside ++ '\x7d' :: rest ∧
      ∀ after, readValue depth ('\x7b' :: (inside ++ '\x7d' :: after)) = .ok (.object ms, after) := by
  cases depth with
  | zero =>
    rw [readValue] at h
    cases h
  | succ d =>
    rw [readValue] at h
    obtain ⟨ms, between, hmembers, hresult⟩ := Reading.andThen_eq_ok_iff.mp h
    cases hresult
    obtain ⟨inside, rfl, hinside⟩ := (isLoop_readMembers d).exists_inside
      (isLocal_readMember (hlocal d rfl)) start_of_readMember hmembers
    refine ⟨ms, inside, rfl, rfl, fun after => ?_⟩
    rw [readValue, hinside, Reading.andThen_ok]

theorem isLocal_readWord (value : Json) (word : List Char) : IsLocal (readWord value word) := by
  intro cs j rest h
  obtain ⟨rfl, rfl⟩ := readWord_eq_ok_iff.mp h
  exact ⟨word, rfl, fun after _ => readWord_eq_ok_iff.mpr ⟨rfl, rfl⟩⟩

theorem isLocal_arrayValue {depth : Nat} (hlocal : IsLocal (readValue depth)) :
    IsLocal fun cs => (readItems (readValue depth) (cs.length + 1) true cs).andThen fun items after =>
      .ok (array items, after) := by
  intro cs j rest h
  obtain ⟨items, between, hitems, hresult⟩ := Reading.andThen_eq_ok_iff.mp h
  cases hresult
  obtain ⟨inside, rfl, hinside⟩ := (isLoop_readItems depth).exists_inside (s := ()) hlocal
    start_of_readValue hitems
  refine ⟨inside ++ [']'], List.append_cons .., fun after _ => ?_⟩
  rw [← List.append_cons]
  exact Reading.andThen_eq_ok_iff.mpr ⟨items, after, hinside after, rfl⟩

/-- One turn of the reader: it is local if the readers of inner values are. -/
theorem isLocal_readValue_of_inner {depth : Nat} (hlocal : ∀ d, depth = d + 1 → IsLocal (readValue d)) :
    IsLocal (readValue depth) := by
  intro cs j rest h
  have hread := h
  rw [readValue.eq_def] at h
  split at h
  · cases h
  · exact (isLocal_readWord .null _).behind (fun text => by rw [readValue]) h
  · exact (isLocal_readWord (.bool true) _).behind (fun text => by rw [readValue]) h
  · exact (isLocal_readWord (.bool false) _).behind (fun text => by rw [readValue]) h
  · exact (isLocal_readNumber true).behind (fun text => by rw [readValue]) h
  · have hstring := isDelimited_readString.andThen fun s => isDelimited_ok (string s)
    exact hstring.isLocal.behind (fun text => by rw [readValue]) h
  · cases depth with
    | zero => cases h
    | succ d => exact (isLocal_arrayValue (hlocal d rfl)).behind (fun text => by rw [readValue]) h
  · obtain ⟨ms, inside, rfl, rfl, hinside⟩ := exists_of_readValue_object hlocal hread
    refine ⟨'\x7b' :: (inside ++ ['\x7d']), by rw [List.cons_append, ← List.append_cons], ?_⟩
    intro after _
    rw [List.cons_append, ← List.append_cons]
    exact hinside after
  · next c cs _ _ _ _ _ _ _ =>
    split at h
    · next hc =>
      obtain ⟨text, hcs, htext⟩ := isLocal_readNumber false _ _ _ h
      have hnil (r : Json × List Char) : readNumber false [] ≠ .ok r := by
        intro hr
        cases hr
      obtain ⟨d, digits, rfl⟩ := List.exists_cons_of_ne_nil (htext.ne_nil hnil)
      obtain ⟨rfl, -⟩ := List.cons.inj hcs
      refine ⟨c :: digits, hcs, fun after hstops => ?_⟩
      have hnumber := htext after hstops
      rw [List.cons_append] at hnumber ⊢
      rw [readValue, if_pos hc, hnumber]
      all_goals assumption
    · cases h

/-- **A value is read alike whatever follows it**, as long as no numeral reaches into that. -/
theorem isLocal_readValue (depth : Nat) : IsLocal (readValue depth) := by
  induction depth with
  | zero => exact isLocal_readValue_of_inner nofun
  | succ depth ih =>
    apply isLocal_readValue_of_inner
    rintro d ⟨⟩
    exact ih

end ExtensionKit.Json
