import TaskRelay.Config.Basic

/-!
# Configurations from settings

Each part of a configuration is a record of settings, of which any may be missing,
except that a pipeline needs a topic, a domain and an action.
-/

namespace TaskRelay

def RetryPolicy.ofSetting? (surplus : Bool) (s : Setting) : Option RetryPolicy := do
  let usual := RetryPolicy.geocoder
  let fields ← s.fields? ["max_retries", "delay_ms"] surplus
  let maxRetries ← Setting.field? fields "max_retries" usual.maxRetries Setting.word32?
  let delay ← Setting.field? fields "delay_ms" usual.delay Setting.word64?
  return { maxRetries, delay }

def PipelineConfig.ofSetting? (surplus : Bool) (s : Setting) : Option PipelineConfig := do
  let fields ← s.fields? ["topic", "domain", "action", "retry"] surplus
  let topic ← (← fields.lookup "topic").text?
  let domain ← (← fields.lookup "domain").text?
  let action ← (← fields.lookup "action").text?
  let retry ← Setting.field? fields "retry" .geocoder (RetryPolicy.ofSetting? surplus)
  return { topic, domain, action, retry }

def Pipelines.ofSetting? : Setting → Option Pipelines
  | .table entries => do
    let entries ← entries.mapM fun (name, s) => do
      return (name, ← PipelineConfig.ofSetting? true s)
    return .ofList entries
  | _ => none

def LoggingConfig.ofSetting? (s : Setting) : Option LoggingConfig := do
  let fields ← s.fields? ["filter", "json"] true
  let filter ← Setting.field? fields "filter" none fun s => s.text?.map some
  let json ← Setting.field? fields "json" false Setting.flag?
  return { filter, json }

def CollectionSettings.ofSetting? (s : Setting) : Option CollectionSettings := do
  let usual : CollectionSettings := {}
  let fields ← s.fields? ["max_messages", "window_ms", "idle_poll_ms"] true
  let maxMessages ← Setting.field? fields "max_messages" usual.maxMessages Setting.word64?
  let window ← Setting.field? fields "window_ms" usual.window Setting.word64?
  let idlePoll ← Setting.field? fields "idle_poll_ms" usual.idlePoll Setting.word64?
  return { maxMessages, window, idlePoll }

def LeaderConfig.ofSetting? (s : Setting) : Option LeaderConfig := do
  let usual : LeaderConfig := {}
  let fields ← s.fields? ["lease_ttl_ms", "retry_ms"] true
  let leaseTtl ← Setting.field? fields "lease_ttl_ms" usual.leaseTtl Setting.word64?
  let retry ← Setting.field? fields "retry_ms" usual.retry Setting.word64?
  return { leaseTtl, retry }

namespace Config

def settingNames : List String :=
  ["environment", "logging", "aggregator", "phases", "carry_over_prefixes", "leader", "pipelines"]

def ofSetting? (s : Setting) : Option Config := do
  let usual : Config := {}
  let fields ← s.fields? settingNames true
  let environment ← Setting.field? fields "environment" usual.environment Setting.text?
  let logging ← Setting.field? fields "logging" usual.logging LoggingConfig.ofSetting?
  let collection ←
    Setting.field? fields "aggregator" usual.collection CollectionSettings.ofSetting?
  let phases ← Setting.field? fields "phases" usual.phases Setting.texts?
  let carryPrefixes ←
    Setting.field? fields "carry_over_prefixes" usual.carryPrefixes Setting.texts?
  let leader ← Setting.field? fields "leader" usual.leader LeaderConfig.ofSetting?
  let pipelines ← Setting.field? fields "pipelines" usual.pipelines Pipelines.ofSetting?
  return { environment, logging, collection, phases, carryPrefixes, leader, pipelines }

end Config

end TaskRelay
