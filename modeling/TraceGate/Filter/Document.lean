import TraceGate.Filter.Section
import TraceGate.Toml.Document
import TraceGate.Toml.Record

namespace TraceGate.Filter

open Toml

def GeneralSection.ofValue? (v : Value) : Option GeneralSection := do
  let r ← Record.of? v
  return { name := ← r.require 0 "name" Value.text?,
           defaultLevel := ← r.require 1 "default_level" Value.integer?,
           backend := ← r.allow 2 "backend" (fun v => some <$> v.text?) none }

def FilterSection.ofValue? (v : Value) : Option FilterSection := do
  let r ← Record.of? v
  return { name := ← r.require 0 "name" Value.text?,
           level := ← r.require 1 "level" Value.integer?,
           clients := ← r.allow 2 "clients" Value.text? noneText,
           controlMessages := ← r.allow 3 "control_messages" Value.text? noneText,
           injections := ← r.allow 4 "injections" Value.text? noneText }

def InjectionSection.ofValue? (v : Value) : Option InjectionSection := do
  let r ← Record.of? v
  return { name := ← r.require 0 "name" Value.text?,
           app := ← r.require 1 "app_id" Value.text?,
           context := ← r.require 2 "context_id" Value.text?,
           node := ← r.require 3 "node_id" Value.text?,
           serviceIds := ← r.require 4 "service_ids" Value.text? }

def Config.ofDocument? (text : String) : Option Config := do
  let r := Record.named (← Toml.read? text)
  guard (r.onlyNames ["general", "filter", "injection"])
  return { general := ← r.require 0 "general" GeneralSection.ofValue?,
           filters := ← r.allow 1 "filter" (Value.list? FilterSection.ofValue?) [],
           injections := ← r.allow 2 "injection" (Value.list? InjectionSection.ofValue?) [] }

end TraceGate.Filter
