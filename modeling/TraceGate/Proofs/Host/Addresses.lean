import TraceGate.Proofs.Host.Carrying

namespace TraceGate

def Net.Address.loopback : Net.Address := .v6 #v[0, 0, 0, 0, 0, 0, 0, 1]

namespace Host

variable {h h' h'' : Host} {e : Endpoint} {address : Net.Address}

/-- What listens at an address still does. -/
def Houses (h h' : Host) : Prop := ∀ e address, h.address? e = some address → h'.address? e = some address

theorem Houses.refl (h : Host) : Houses h h := fun _ _ => id

theorem Houses.trans (first : Houses h h') (second : Houses h' h'') : Houses h h'' :=
  fun e address listens => second e address (first e address listens)

theorem Houses.of_endpoints (same : h'.endpoints = h.endpoints) : Houses h h' := by
  intro e address listens
  have contents : h'.content? e = h.content? e := by rw [content?, same, content?]
  rw [address?_eq, contents, ← address?_eq]
  exact listens

theorem isOpen_of_address? (listens : h.address? e = some address) : h.IsOpen e := by
  rw [address?_eq] at listens
  obtain ⟨content, known, -⟩ := Option.bind_eq_some_iff.1 listens
  obtain ⟨before, after, split, -⟩ := List.lookup_eq_some_iff.1 known
  exact isOpen_iff.2 ⟨content, split ▸ List.mem_append_right _ List.mem_cons_self⟩

theorem Still.houses (still : Still h h') : Houses h h' := fun e _ listens => (still.address? e).trans listens

theorem openEndpoint_content? (h : Host) (kind : EndpointKind) (content : Content) :
    (h.openEndpoint kind content).2.content? (h.openEndpoint kind content).1 = some content := by
  have absent : h.endpoints.lookup (h.openEndpoint kind content).1 = none := by
    rw [List.lookup_eq_none_iff]
    intro p mem
    have free := nextDescriptor_free h
    rw [← Bool.not_eq_true, isOpen_eq_true] at free
    rw [bne_iff_ne]
    intro same
    exact free (List.mem_map.2 ⟨p, mem, (congrArg Endpoint.fd same).symm⟩)
  change (h.endpoints ++ [((h.openEndpoint kind content).1, content)]).lookup _ = some content
  rw [List.lookup_append, absent, Option.none_or, List.lookup_cons_self]

theorem houses_openEndpoint (h : Host) (kind : EndpointKind) (content : Content) :
    Houses h (h.openEndpoint kind content).2 := by
  intro e address listens
  rw [address?_eq] at listens ⊢
  obtain ⟨old, known, listens⟩ := Option.bind_eq_some_iff.1 listens
  have still : (h.openEndpoint kind content).2.content? e = some old := by
    change (h.endpoints ++ _).lookup e = some old
    rw [List.lookup_append, show h.endpoints.lookup e = some old from known]
    rfl
  rw [still]
  exact listens

theorem houses_accept (h : Host) (e : Endpoint) : Houses h (h.accept e).2 := by
  unfold accept
  split
  · exact .refl h
  · refine attempt_leaves (P := Houses h) (fun faults => ?_) fun _ faults => (Still.setFaults h faults).houses
    dsimp only
    split
    · rename_i own _ rest known
      have taken : Still { h with faults } (({ h with faults } : Host).setContent e (.listener own rest)) := .setContent (by
        rw [address?_eq, known]
        rfl)
      exact ((Still.setFaults h faults).trans taken).houses.trans (houses_openEndpoint _ _ _)
    · exact (Still.setFaults h faults).houses
  · exact .refl h

theorem houses_listenNetwork (h : Host) (address : Net.Address) : Houses h (h.listenNetwork address).2 ∧
    ∀ e, (h.listenNetwork address).1 = .ok e → (h.listenNetwork address).2.address? e = some address := by
  obtain ⟨listenFaults, ⟨e, k, opened, ok⟩ | ⟨error, failed⟩⟩ := listenNetwork_cases h address
  · rw [ok]
    have houses := houses_openEndpoint { h with listenFaults } .tcpListener (.listener (some address) [])
    have content := openEndpoint_content? { h with listenFaults } .tcpListener (.listener (some address) [])
    rw [opened] at houses content
    refine ⟨houses, ?_⟩
    rintro _ ⟨⟩
    rw [address?_eq, content]
    rfl
  · rw [failed]
    exact ⟨.of_endpoints rfl, by rintro _ ⟨⟩⟩

theorem IsOpen.content (isOpen : h.IsOpen e) : ∃ content, h.content? e = some content := by
  obtain ⟨content, mem⟩ := isOpen_iff.1 isOpen
  refine Option.ne_none_iff_exists'.1 fun none => ?_
  simpa using List.lookup_eq_none_iff.1 none _ mem

theorem Shrinks.content? (shrinks : Shrinks h h') (sound : h.Sound) (still : h'.IsOpen e) : h'.content? e = h.content? e := by
  obtain ⟨content', remains⟩ := still.content
  obtain ⟨content, known⟩ := IsOpen.content ((shrinks.endpoints.map _).subset still)
  have old := shrinks.endpoints.subset (mem_of_content? remains)
  have same := List.inj_on_of_nodup_map sound.descriptors old (mem_of_content? known) rfl
  rw [remains, known]
  exact congrArg (fun p => some p.2) same

theorem Shrinks.houses (shrinks : Shrinks h h') (sound : h.Sound) (listens : h.address? e = some address)
    (still : h'.IsOpen e) : h'.address? e = some address := by
  rwa [address?_eq, shrinks.content? sound still, ← address?_eq]

structure Retains (h h' : Host) : Prop where
  sound : h.Sound → h'.Sound
  next_le : h.next ≤ h'.next
  opened : ∀ e, h'.IsOpen e → h.IsOpen e ∨ h.next ≤ e.id
  listens : h.Sound → ∀ {e address}, h.address? e = some address → h'.IsOpen e → h'.address? e = some address

theorem Retains.trans (first : Retains h h') (second : Retains h' h'') : Retains h h'' where
  sound := second.sound ∘ first.sound
  next_le := first.next_le.trans second.next_le
  opened e isOpen := by
    rcases second.opened e isOpen with old | new
    · exact first.opened e old
    · exact Or.inr (first.next_le.trans new)
  listens sound e address listens isOpen := by
    have known := sound.numbers e (isOpen_of_address? listens)
    have before := (second.opened e isOpen).resolve_right (known.trans_le first.next_le).not_ge
    exact second.listens (first.sound sound) (first.listens sound listens before) isOpen

theorem Retains.of_grows (grows : Grows h h') (houses : Houses h h') : Retains h h' :=
  ⟨grows.sound, grows.next_le, grows.opened, fun _ e address listens _ => houses e address listens⟩

theorem Shrinks.retains (shrinks : Shrinks h h') : Retains h h' :=
  ⟨shrinks.sound, shrinks.next_eq.ge, fun _ isOpen => Or.inl ((shrinks.endpoints.map _).subset isOpen),
    fun sound _ _ listens still => shrinks.houses sound listens still⟩

end Host

end TraceGate
