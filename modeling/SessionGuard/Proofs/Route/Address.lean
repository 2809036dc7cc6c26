import SessionGuard.Proofs.Text.Trim
import SessionGuard.Route

/-!
# The addresses of screens

The addresses of a screen are told apart from how an address is read: the path of the screen, slashes,
and a query or a fragment (`Route.IsAddress`).  An address is read as that of the screen whose address
it is, and of no other (`ofPath_eq_iff`), so what only decorates an address leads nowhere else
(`addresses_lead_to_screens`).
-/

namespace SessionGuard.Route

variable {address : String} {r : Route} {cs a q : List Char}

/-! ## Addresses -/

/-- The path of a screen in its addresses; that of the landing screen is empty. -/
def bare : Route → String
  | landing => ""
  | r => r.path

/-- What may follow the path in an address: nothing, a query or a fragment. -/
inductive IsDecoration : List Char → Prop
  | none : IsDecoration []
  | query (rest : List Char) : IsDecoration ('?' :: rest)
  | fragment (rest : List Char) : IsDecoration ('#' :: rest)

/-- An address of a screen: its path, any number of slashes, and a query or a fragment. -/
def IsAddress (r : Route) (address : String) : Prop :=
  ∃ (slashes : Nat) (q : List Char), IsDecoration q ∧
    address = r.bare ++ String.ofList (List.replicate slashes '/' ++ q)

/-- A character that starts no query and no fragment. -/
def IsBefore (c : Char) : Prop := c ≠ '?' ∧ c ≠ '#'

/-! ## Reading -/

/-- The part before the decoration goes on up to the decoration. -/
theorem beforeDecoration_append (ha : ∀ c ∈ a, IsBefore c) (hq : IsDecoration q) :
    beforeDecoration (a ++ q) = a := by
  have hall : ∀ c ∈ a, (c != '?' && c != '#') = true := fun c hc => by simp [(ha c hc).1, (ha c hc).2]
  rw [beforeDecoration, List.takeWhile_append_of_pos hall]
  cases hq <;> simp

/-- An address is the part before its decoration, and its decoration. -/
theorem exists_decoration (cs : List Char) :
    ∃ q, IsDecoration q ∧ cs = beforeDecoration cs ++ q ∧ ∀ c ∈ beforeDecoration cs, IsBefore c := by
  refine ⟨cs.dropWhile fun c => c != '?' && c != '#', ?_, List.takeWhile_append_dropWhile.symm,
    fun c hc => ?_⟩
  · cases hq : cs.dropWhile fun c => c != '?' && c != '#' with
    | nil => exact .none
    | cons c rest =>
      have hstop := List.head?_dropWhile_not (fun c => c != '?' && c != '#') cs
      simp only [hq, List.head?_cons] at hstop
      by_cases hc : c = '?'
      · exact hc ▸ .query rest
      · have hc' : c = '#' := by simpa [hc] using hstop
        exact hc' ▸ .fragment rest
  · simpa [IsBefore] using List.all_eq_true.1 List.all_takeWhile c hc

theorem beforeDecoration_append_self (cs : List Char) (hq : IsDecoration q) :
    beforeDecoration (cs ++ q) = beforeDecoration cs := by
  obtain ⟨q', hq', hcs, hbefore⟩ := exists_decoration cs
  cases hq' with
  | none =>
    rw [List.append_nil] at hcs
    rw [← hcs] at hbefore
    rw [beforeDecoration_append hbefore hq, ← hcs]
  | query rest =>
    conv => lhs; rw [hcs, List.append_assoc, List.cons_append]
    exact beforeDecoration_append hbefore (.query _)
  | fragment rest =>
    conv => lhs; rw [hcs, List.append_assoc, List.cons_append]
    exact beforeDecoration_append hbefore (.fragment _)

theorem bare_fit (r : Route) : (∀ c ∈ r.bare.toList, IsBefore c) ∧
    ∀ c, r.bare.toList.getLast? = some c → (c == '/') = false := by
  have hlast : r.bare.toList.getLast? ≠ some '/' := by cases r <;> decide
  constructor
  · unfold IsBefore
    cases r <;> exact Text.forall_mem_of_all (by decide)
  · intro c hc
    have hne : c ≠ '/' := by
      rintro rfl
      exact hlast hc
    simpa using hne

theorem stem?_eq_bare (h : r ≠ notFound) : r.stem? = some r.bare := by
  cases r <;> first | rfl | exact absurd rfl h

/-- The bare address is the path of a screen just if the address is one of the screen. -/
theorem stemOf_eq_bare_iff : stemOf address = r.bare ↔ r.IsAddress address := by
  obtain ⟨hbefore, hlast⟩ := bare_fit r
  rw [stemOf, ← String.toList_inj, String.toList_ofList, Text.dropTrailing_eq_iff]
  constructor
  · rintro ⟨-, run, hrun, hslashes⟩
    obtain ⟨q, hq, haddress, -⟩ := exists_decoration address.toList
    refine ⟨run.length, q, hq, ?_⟩
    have hreplicate : run = List.replicate run.length '/' :=
      List.eq_replicate_of_mem fun c hc => by simpa using hslashes c hc
    rw [← String.toList_inj, haddress, hrun, String.toList_append, String.toList_ofList,
      ← hreplicate, List.append_assoc]
  · rintro ⟨slashes, q, hq, rfl⟩
    refine ⟨hlast, List.replicate slashes '/', ?_, fun c hc => by simp [List.eq_of_mem_replicate hc]⟩
    rw [String.toList_append, String.toList_ofList, ← List.append_assoc]
    refine beforeDecoration_append (fun c hc => ?_) hq
    rcases List.mem_append.1 hc with hc | hc
    · exact hbefore c hc
    · rw [List.eq_of_mem_replicate hc]
      exact ⟨by decide, by decide⟩

/-- An address is read as that of a screen just if it is one of the screen. -/
theorem ofPath_eq_iff (h : r ≠ notFound) : ofPath address = r ↔ r.IsAddress address := by
  rw [← stemOf_eq_bare_iff]
  constructor
  · intro hr
    unfold ofPath at hr
    cases hfind : all.find? fun s => s.stem? == some (stemOf address) with
    | none =>
      rw [hfind] at hr
      exact absurd hr.symm h
    | some s =>
      rw [hfind, Option.getD_some] at hr
      have hstem := List.find?_some hfind
      rw [beq_iff_eq, hr, stem?_eq_bare h, Option.some.injEq] at hstem
      exact hstem.symm
  · intro hstem
    exact ofPath_eq_of_stem? (by rw [stem?_eq_bare h, hstem])

theorem ofPath_congr {address' : String} (h : stemOf address = stemOf address') :
    ofPath address = ofPath address' := by
  rw [ofPath, ofPath, h]

/-- An address leads to a screen exactly if it is the path of the screen with any number of slashes and
a query or a fragment behind it, and every other address leads to the screen for what is not found.  So
one slash more in front of the query or fragment changes nothing, nor does a query or a fragment; the
path of each screen leads back to it; and a screen for members is reached by its own addresses alone. -/
theorem addresses_lead_to_screens :
    (∀ (address : String) (r : Route), r ≠ notFound → (ofPath address = r ↔ r.IsAddress address)) ∧
    (∀ address : String, ofPath address = notFound ↔ ∀ r ≠ notFound, ¬ r.IsAddress address) ∧
    (∀ a q : List Char, (∀ c ∈ a, IsBefore c) → IsDecoration q →
      ofPath (String.ofList (a ++ '/' :: q)) = ofPath (String.ofList (a ++ q))) ∧
    (∀ (address : String) (q : List Char), IsDecoration q →
      ofPath (address ++ String.ofList q) = ofPath address) ∧
    (∀ r : Route, ofPath r.path = r) ∧
    ∀ address : String, (ofPath address).access = .members →
      ∃ r : Route, r.access = .members ∧ r.IsAddress address := by
  refine ⟨fun address r h => ofPath_eq_iff h, fun address => ⟨fun h r hr haddress => ?_, fun h => ?_⟩,
    fun a q ha hq => ofPath_congr ?_, fun address q hq => ofPath_congr ?_, fun r => ?_,
    fun address h => ?_⟩
  · rw [(ofPath_eq_iff hr).2 haddress] at h
    exact hr h
  · by_cases hne : ofPath address = notFound
    · exact hne
    · exact absurd ((ofPath_eq_iff hne).1 rfl) (h _ hne)
  · have hslash : ∀ c ∈ a ++ ['/'], IsBefore c := by
      intro c hc
      rcases List.mem_append.1 hc with hc | hc
      · exact ha c hc
      · rw [List.mem_singleton.1 hc]
        exact ⟨by decide, by decide⟩
    rw [stemOf, stemOf, String.toList_ofList, String.toList_ofList, List.append_cons,
      beforeDecoration_append hslash hq, beforeDecoration_append ha hq,
      Text.dropTrailing_append_run (by simp)]
  · rw [stemOf, stemOf, String.toList_append, String.toList_ofList,
      beforeDecoration_append_self _ hq]
  · by_cases hr : r = notFound
    · subst hr
      decide
    · exact ofPath_path hr
  · refine ⟨ofPath address, h, (ofPath_eq_iff fun hr => ?_).1 rfl⟩
    rw [hr] at h
    cases h

/-- A second slash, a query with slashes in it and a fragment lead nobody away from the settings. -/
theorem addresses_lead_to_settings :
    settings ≠ notFound ∧ settings.IsAddress "/settings//?from=/items#top" ∧
      ofPath "/settings//?from=/items#top" = settings := by
  have haddress : settings.IsAddress "/settings//?from=/items#top" :=
    ⟨2, "?from=/items#top".toList, .query _, by decide⟩
  exact ⟨by decide, haddress, (addresses_lead_to_screens.1 _ settings (by decide)).2 haddress⟩

end SessionGuard.Route
