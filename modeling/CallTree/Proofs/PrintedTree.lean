import CallTree.Proofs.Lists
import CallTree.Report
import Mathlib.Data.List.Forall2

/-!
# The printed tree tells what happened

A printed tree can be read back. The indentation of a line and the first character behind it are
enough to tell what it is about: an arrow stands before a method, a bracket before a note, and a
note is one step further in than the method that it is about. What follows in the line may be any
text, so the notes have to differ in how they begin.

There is one place where a line does not speak for itself. A method that is reached again has the
line of any method, and only the note below it tells. But no event on its own begins with that note
(`head?_render_ne_cycleNote`), so a method with the note below it was reached again, and a method
without it was entered.

What is not printed cannot be read back. `Event.LooksLike` says what is: two logs look alike event
by event exactly if they are printed alike (`render_eq_iff`).
-/

namespace CallTree

/-- **Two events look alike** when they are of one kind and at one depth, and say the same as far as
it is printed. Of a method that is not expanded this is the reason, and for an error its text, where
an empty text is as good as none; of a member it is the type and the kind. -/
inductive Event.LooksLike : Event → Event → Prop
  | enter (signature : String) (depth : Int) :
    LooksLike (.enter signature depth) (.enter signature depth)
  | cycle (signature : String) (depth : Int) :
    LooksLike (.cycle signature depth) (.cycle signature depth)
  | terminal (signature signature' : String) (depth : Int) (reason : TerminalReason)
    (detail detail' : Option String)
    (said : reason = .providerError → detail.getD "" = detail'.getD "") :
    LooksLike (.terminal signature depth reason detail) (.terminal signature' depth reason detail')
  | creation (typeName : String) (depth : Int) :
    LooksLike (.creation typeName depth) (.creation typeName depth)
  | dependency (memberType : String) (depth : Int) (kind : MemberKind)
    (memberName memberName' : Option String) :
    LooksLike (.dependency memberType depth kind memberName)
      (.dependency memberType depth kind memberName')

namespace Report

/-! ## Lines -/

theorem spaces_append_inj {m n : Int} {s t : String} (hs : s.toList.head? ≠ some ' ')
    (ht : t.toList.head? ≠ some ' ') (h : spaces m ++ s = spaces n ++ t) :
    m.toNat = n.toNat ∧ s = t := by
  have hlist := congrArg String.toList h
  simp only [spaces, String.toList_append, String.toList_ofList] at hlist
  exact (replicate_append_inj hs ht hlist).imp id String.toList_inj.mp

section Indented

variable {indent : Int} (hindent : 1 ≤ indent) {d d' : Int} (hd : 0 ≤ d) (hd' : 0 ≤ d')

include hindent hd in
theorem spaces_step : spaces (d * indent) ++ spaces indent = spaces ((d + 1) * indent) := by
  have hfar : 0 ≤ d * indent := Int.mul_nonneg hd (by omega)
  unfold spaces
  rw [← String.ofList_append, List.replicate_append_replicate, ← Int.toNat_add hfar (by omega),
    Int.add_mul, Int.one_mul]

include hindent hd hd' in
/-- The indentation tells the depth. -/
theorem depth_inj (h : (d * indent).toNat = (d' * indent).toNat) : d = d' := by
  have hfar : 0 ≤ d * indent := Int.mul_nonneg hd (by omega)
  have hfar' : 0 ≤ d' * indent := Int.mul_nonneg hd' (by omega)
  have heq : d * indent = d' * indent := by omega
  exact Int.eq_of_mul_eq_mul_right (by omega) heq

include hindent hd hd' in
/-- **The line of a method** tells its depth and its signature. -/
theorem methodLine_inj {s s' : String} (h : methodLine indent d s = methodLine indent d' s') :
    d = d' ∧ s = s' := by
  unfold methodLine at h
  rw [String.append_assoc, String.append_assoc] at h
  obtain ⟨hwidth, hbody⟩ := spaces_append_inj (by simp) (by simp) h
  exact ⟨depth_inj hindent hd hd' hwidth, (String.append_right_inj _).mp hbody⟩

/-- A note, which begins with a bracket. -/
def IsNote (note : String) : Prop :=
  note.toList.head? = some '(' ∨ note.toList.head? = some '['

theorem IsNote.head?_ne {note : String} (h : IsNote note) : note.toList.head? ≠ some ' ' := by
  rcases h with h | h <;> rw [h] <;> decide

include hindent hd hd' in
/-- **The line of a note** tells the depth of its method and what it says. -/
theorem noteLine_inj {note note' : String} (hnote : IsNote note) (hnote' : IsNote note')
    (h : noteLine indent d note = noteLine indent d' note') : d = d' ∧ note = note' := by
  unfold noteLine at h
  rw [spaces_step hindent hd, spaces_step hindent hd'] at h
  obtain ⟨hwidth, hbody⟩ := spaces_append_inj hnote.head?_ne hnote'.head?_ne h
  have hdepth : d + 1 = d' + 1 := depth_inj hindent (by omega) (by omega) hwidth
  exact ⟨by omega, hbody⟩

include hindent hd' in
/-- A line is not about a method and a note at once. -/
theorem methodLine_ne_noteLine {s note : String} (hnote : IsNote note) :
    methodLine indent d s ≠ noteLine indent d' note := by
  intro h
  unfold methodLine noteLine at h
  rw [spaces_step hindent hd', String.append_assoc] at h
  obtain ⟨-, hbody⟩ := spaces_append_inj (by simp) hnote.head?_ne h
  rcases hnote with hnote | hnote
  · rw [← hbody, String.toList_append] at hnote
    exact absurd (Option.some.inj hnote) (by decide)
  · rw [← hbody, String.toList_append] at hnote
    exact absurd (Option.some.inj hnote) (by decide)

end Indented

/-! ## Notes -/

/-- The note that an event is, if it is one. -/
def note? : Event → Option String
  | .enter _ _ => none
  | .cycle _ _ => none
  | .terminal _ _ reason detail => some ("(" ++ terminalNote reason detail ++ ")")
  | .creation t _ => some ("[Creates " ++ t ++ "]")
  | .dependency t _ .field _ => some ("[Uses dependency: " ++ t ++ "]")
  | .dependency t _ .property _ => some ("[Uses dependency property: " ++ t ++ "]")

theorem event_cases (e : Event) :
    (∃ s d, e = .enter s d) ∨ (∃ s d, e = .cycle s d) ∨ ∃ note, note? e = some note := by
  cases e with
  | enter s d => exact Or.inl ⟨s, d, rfl⟩
  | cycle s d => exact Or.inr (Or.inl ⟨s, d, rfl⟩)
  | terminal s d reason detail => exact Or.inr (Or.inr ⟨_, rfl⟩)
  | creation t d => exact Or.inr (Or.inr ⟨_, rfl⟩)
  | dependency t d kind name => cases kind <;> exact Or.inr (Or.inr ⟨_, rfl⟩)

theorem lines_of_note? {e : Event} {note : String} (h : note? e = some note) (indent : Int) :
    lines indent e = [noteLine indent e.depth note] := by
  cases e with
  | enter s d => cases h
  | cycle s d => cases h
  | terminal s d reason detail => cases h; rfl
  | creation t d => cases h; rfl
  | dependency t d kind name => cases kind <;> cases h <;> rfl

theorem isNote_of_note? {e : Event} {note : String} (h : note? e = some note) : IsNote note := by
  cases e with
  | enter s d => cases h
  | cycle s d => cases h
  | terminal s d reason detail => cases h; exact Or.inl (by simp)
  | creation t d => cases h; exact Or.inr (by simp)
  | dependency t d kind name => cases kind <;> cases h <;> exact Or.inr (by simp)

theorem isNote_cycleNote : IsNote cycleNote := Or.inl (by decide)

/-- Only of an error more is said than the reason, and only if there is a text. -/
theorem terminalNote_eq (reason : TerminalReason) (detail : Option String) :
    terminalNote reason detail = reasonNote reason
        ∧ (reason = .providerError → detail.getD "" = "")
      ∨ reason = .providerError
        ∧ terminalNote reason detail = reasonNote .providerError ++ ": " ++ detail.getD "" := by
  by_cases hreason : reason = .providerError
  · subst hreason
    cases detail with
    | none => exact Or.inl ⟨rfl, fun _ => rfl⟩
    | some text =>
      by_cases htext : text.isEmpty
      · exact Or.inl ⟨if_pos htext, fun _ => String.isEmpty_iff.mp htext⟩
      · exact Or.inr ⟨rfl, if_neg htext⟩
  · refine Or.inl ⟨?_, fun h => absurd h hreason⟩
    unfold terminalNote
    split
    · exact absurd rfl hreason
    · rfl

/-- No reason is said in words that go on from those for an error. -/
theorem reasonNote_ne (reason : TerminalReason) (text : String) :
    reasonNote reason ≠ reasonNote .providerError ++ ": " ++ text := by
  intro h
  have hlist := congrArg String.toList h
  cases reason <;> simp [reasonNote] at hlist

theorem reasonNote_inj {reason reason' : TerminalReason}
    (h : reasonNote reason = reasonNote reason') : reason = reason' := by
  revert h
  cases reason <;> cases reason' <;> decide

/-- **What is said of a method that is not expanded** tells the reason, and of an error its text. -/
theorem terminalNote_inj {reason reason' : TerminalReason} {detail detail' : Option String}
    (h : terminalNote reason detail = terminalNote reason' detail') :
    reason = reason' ∧ (reason = .providerError → detail.getD "" = detail'.getD "") := by
  rcases terminalNote_eq reason detail with ⟨hnote, hempty⟩ | ⟨rfl, hnote⟩ <;>
    rcases terminalNote_eq reason' detail' with ⟨hnote', hempty'⟩ | ⟨rfl, hnote'⟩ <;>
    rw [hnote, hnote'] at h
  · obtain rfl := reasonNote_inj h
    exact ⟨rfl, fun herror => (hempty herror).trans (hempty' herror).symm⟩
  · exact absurd h (reasonNote_ne reason _)
  · exact absurd h.symm (reasonNote_ne reason' _)
  · exact ⟨rfl, fun _ => (String.append_right_inj _).mp h⟩

/-- **No event is the note below a method that is reached again.** -/
theorem note?_ne_cycleNote (e : Event) : note? e ≠ some cycleNote := by
  intro h
  cases e with
  | enter s d => cases h
  | cycle s d => cases h
  | terminal s d reason detail =>
    have hlist := congrArg String.toList (Option.some.inj h)
    rcases terminalNote_eq reason detail with ⟨hnote, -⟩ | ⟨rfl, hnote⟩
    · rw [hnote] at hlist
      cases reason <;> exact absurd hlist (by decide)
    · rw [hnote] at hlist
      simp [reasonNote, cycleNote] at hlist
  | creation t d => simpa [cycleNote] using congrArg String.toList (Option.some.inj h)
  | dependency t d kind name =>
    cases kind <;> simpa [cycleNote] using congrArg String.toList (Option.some.inj h)

/-- **A note tells what it is about.** -/
theorem looksLike_of_note? {e e' : Event} {note : String} (h : note? e = some note)
    (h' : note? e' = some note) (hdepth : e.depth = e'.depth) : e.LooksLike e' := by
  cases e with
  | enter s d => cases h
  | cycle s d => cases h
  | terminal s d reason detail =>
    cases h
    cases e' with
    | enter s' d' => cases h'
    | cycle s' d' => cases h'
    | terminal s' d' reason' detail' =>
      have hnote := (String.append_left_inj _).mp (Option.some.inj h')
      obtain ⟨rfl, hdetail⟩ := terminalNote_inj ((String.append_right_inj _).mp hnote)
      obtain rfl : d = d' := hdepth
      exact .terminal s s' d _ detail detail' fun herror => (hdetail herror).symm
    | creation t' d' => simpa using congrArg String.toList (Option.some.inj h')
    | dependency t' d' kind' name' =>
      cases kind' <;> simpa using congrArg String.toList (Option.some.inj h')
  | creation t d =>
    cases h
    cases e' with
    | enter s' d' => cases h'
    | cycle s' d' => cases h'
    | terminal s' d' reason' detail' =>
      simpa using congrArg String.toList (Option.some.inj h')
    | creation t' d' =>
      have hnote := (String.append_left_inj _).mp (Option.some.inj h')
      obtain rfl := (String.append_right_inj _).mp hnote
      obtain rfl : d = d' := hdepth
      exact .creation _ d
    | dependency t' d' kind' name' =>
      cases kind' <;> simpa using congrArg String.toList (Option.some.inj h')
  | dependency t d kind name =>
    cases e' with
    | enter s' d' => cases h'
    | cycle s' d' => cases h'
    | terminal s' d' reason' detail' =>
      cases kind <;> cases h <;> simpa using congrArg String.toList (Option.some.inj h')
    | creation t' d' =>
      cases kind <;> cases h <;> simpa using congrArg String.toList (Option.some.inj h')
    | dependency t' d' kind' name' =>
      obtain rfl : d = d' := hdepth
      cases kind <;> cases kind' <;> cases h
      · have hnote := (String.append_left_inj _).mp (Option.some.inj h')
        obtain rfl := (String.append_right_inj _).mp hnote
        exact .dependency _ d .field name name'
      · simpa using congrArg String.toList (Option.some.inj h')
      · simpa using congrArg String.toList (Option.some.inj h')
      · have hnote := (String.append_left_inj _).mp (Option.some.inj h')
        obtain rfl := (String.append_right_inj _).mp hnote
        exact .dependency _ d .property name name'

/-! ## Logs -/

theorem terminalNote_congr {reason : TerminalReason} {detail detail' : Option String}
    (h : reason = .providerError → detail.getD "" = detail'.getD "") :
    terminalNote reason detail = terminalNote reason detail' := by
  -- no text is as good as an empty one
  have hgetD : ∀ detail : Option String,
      terminalNote .providerError detail = terminalNote .providerError (some (detail.getD "")) := by
    intro detail
    cases detail <;> rfl
  by_cases hreason : reason = .providerError
  · subst hreason
    rw [hgetD detail, hgetD detail', h rfl]
  · have hplain : ∀ detail, terminalNote reason detail = reasonNote reason := fun detail =>
      ((terminalNote_eq reason detail).resolve_right fun hlong => hreason hlong.1).1
    rw [hplain, hplain]

/-- What is printed of an event is what it looks like. -/
theorem lines_eq_of_looksLike {e e' : Event} (h : e.LooksLike e') (indent : Int) :
    lines indent e = lines indent e' := by
  cases h with
  | enter s d => rfl
  | cycle s d => rfl
  | terminal s s' d reason detail detail' hdetail =>
    exact congrArg (fun note => [noteLine indent d ("(" ++ note ++ ")")])
      (terminalNote_congr hdetail)
  | creation t d => rfl
  | dependency t d kind name name' => cases kind <;> rfl

theorem render_eq_of_looksLike {es es' : List Event} (h : List.Forall₂ Event.LooksLike es es')
    (indent : Int) : render indent es = render indent es' := by
  unfold render
  induction h with
  | nil => rfl
  | cons halike _ ih =>
    rw [List.flatMap_cons, List.flatMap_cons, ih, lines_eq_of_looksLike halike]

section Logs

variable {indent : Int} (hindent : 1 ≤ indent)

include hindent in
/-- **No log begins with the note below a method that is reached again.** -/
theorem head?_render_ne_cycleNote {es : List Event} (hes : ∀ e ∈ es, 0 ≤ e.depth) {d : Int}
    (hd : 0 ≤ d) : (render indent es).head? ≠ some (noteLine indent d cycleNote) := by
  cases es with
  | nil => exact nofun
  | cons e es =>
    have he := hes e List.mem_cons_self
    intro h
    rcases event_cases e with ⟨s, d', rfl⟩ | ⟨s, d', rfl⟩ | ⟨note, hnote⟩
    · exact methodLine_ne_noteLine hindent hd isNote_cycleNote (Option.some.inj h)
    · exact methodLine_ne_noteLine hindent hd isNote_cycleNote (Option.some.inj h)
    · rw [render, List.flatMap_cons, lines_of_note? hnote] at h
      obtain ⟨-, rfl⟩ := noteLine_inj hindent he hd (isNote_of_note? hnote) isNote_cycleNote
        (Option.some.inj h)
      exact note?_ne_cycleNote e hnote

include hindent in
/-- **The first event of a log** can be read off its lines, and the lines that are left are those of
the other events. -/
theorem looksLike_of_render_cons {e e' : Event} {es es' : List Event}
    (hes : ∀ e ∈ es, 0 ≤ e.depth) (hes' : ∀ e ∈ es', 0 ≤ e.depth) (he : 0 ≤ e.depth)
    (he' : 0 ≤ e'.depth) (h : render indent (e :: es) = render indent (e' :: es')) :
    e.LooksLike e' ∧ render indent es = render indent es' := by
  have hcons : ∀ (e : Event) es, render indent (e :: es) = lines indent e ++ render indent es :=
    fun _ _ => List.flatMap_cons
  rw [hcons, hcons] at h
  rcases event_cases e with ⟨s, d, rfl⟩ | ⟨s, d, rfl⟩ | ⟨note, hnote⟩ <;>
    rcases event_cases e' with ⟨s', d', rfl⟩ | ⟨s', d', rfl⟩ | ⟨note', hnote'⟩
  · obtain ⟨hline, hrest⟩ := List.cons.inj h
    obtain ⟨rfl, rfl⟩ := methodLine_inj hindent he he' hline
    exact ⟨.enter s d, hrest⟩
  · have hhead := congrArg List.head? (List.cons.inj h).2
    exact absurd hhead (head?_render_ne_cycleNote hindent hes he')
  · rw [lines_of_note? hnote'] at h
    exact absurd (List.cons.inj h).1
      (methodLine_ne_noteLine hindent he' (isNote_of_note? hnote'))
  · have hhead := congrArg List.head? (List.cons.inj h).2
    exact absurd hhead.symm (head?_render_ne_cycleNote hindent hes' he)
  · obtain ⟨hline, hrest⟩ := List.cons.inj h
    obtain ⟨rfl, rfl⟩ := methodLine_inj hindent he he' hline
    exact ⟨.cycle s d, (List.cons.inj hrest).2⟩
  · rw [lines_of_note? hnote'] at h
    exact absurd (List.cons.inj h).1
      (methodLine_ne_noteLine hindent he' (isNote_of_note? hnote'))
  · rw [lines_of_note? hnote] at h
    exact absurd (List.cons.inj h).1.symm
      (methodLine_ne_noteLine hindent he (isNote_of_note? hnote))
  · rw [lines_of_note? hnote] at h
    exact absurd (List.cons.inj h).1.symm
      (methodLine_ne_noteLine hindent he (isNote_of_note? hnote))
  · rw [lines_of_note? hnote, lines_of_note? hnote'] at h
    obtain ⟨hline, hrest⟩ := List.cons.inj h
    obtain ⟨hdepth, rfl⟩ := noteLine_inj hindent he he' (isNote_of_note? hnote)
      (isNote_of_note? hnote') hline
    exact ⟨looksLike_of_note? hnote hnote' hdepth, hrest⟩

end Logs

theorem lines_ne_nil (indent : Int) (e : Event) : lines indent e ≠ [] := by
  rcases event_cases e with ⟨s, d, rfl⟩ | ⟨s, d, rfl⟩ | ⟨note, hnote⟩
  · exact List.cons_ne_nil _ _
  · exact List.cons_ne_nil _ _
  · rw [lines_of_note? hnote]
    exact List.cons_ne_nil _ _

/-- **Two logs are printed alike exactly if they look alike**, event by event. -/
theorem render_eq_iff (indent : Int) (hindent : 1 ≤ indent) (es es' : List Event)
    (hes : ∀ e ∈ es, 0 ≤ e.depth) (hes' : ∀ e ∈ es', 0 ≤ e.depth) :
    render indent es = render indent es' ↔ List.Forall₂ Event.LooksLike es es' := by
  refine ⟨fun h => ?_, fun h => render_eq_of_looksLike h indent⟩
  induction es generalizing es' with
  | nil =>
    cases es' with
    | nil => exact .nil
    | cons e' es' => exact absurd (List.append_eq_nil_iff.mp h.symm).1 (lines_ne_nil indent e')
  | cons e es ih =>
    cases es' with
    | nil => exact absurd (List.append_eq_nil_iff.mp h).1 (lines_ne_nil indent e)
    | cons e' es' =>
      obtain ⟨he, hes⟩ := List.forall_mem_cons.mp hes
      obtain ⟨he', hes'⟩ := List.forall_mem_cons.mp hes'
      obtain ⟨halike, hrest⟩ := looksLike_of_render_cons hindent hes hes' he he' h
      exact .cons halike (ih es' hes hes' hrest)

/-- A method that uses a member, fails, and is reached again. -/
def failing (signature : String) (detail member : Option String) : List Event :=
  [.enter "Till.pay" 0, .dependency "Bank" 0 .field member, .cycle "Till.pay" 1,
    .terminal signature 0 .providerError detail]

theorem render_eq_iff_failing :
    render 2 (failing "Till.pay" (some "") (some "bank")) = render 2 (failing "" none none)
      ∧ List.Forall₂ Event.LooksLike (failing "Till.pay" (some "") (some "bank"))
        (failing "" none none) := by
  have hlines : render 2 (failing "Till.pay" (some "") (some "bank"))
      = render 2 (failing "" none none) := by decide +kernel
  exact ⟨hlines, (render_eq_iff 2 (by decide) _ _ (by decide) (by decide)).mp hlines⟩

end Report

end CallTree
