import TaskRelay.Config.Basic

/-!
# Configurations as JSON

A configuration is written whole, with one member for every setting, whether or
not it is as usual, under the names under which settings are read.
-/

namespace TaskRelay

def RetryPolicy.toJson (r : RetryPolicy) : Json String :=
  .object [("max_retries", .number (.ofNat r.maxRetries.toNat)),
    ("delay_ms", .number (.ofNat r.delay))]

def PipelineConfig.toJson (p : PipelineConfig) : Json String :=
  .object [("topic", .text p.topic), ("domain", .text p.domain), ("action", .text p.action),
    ("retry", p.retry.toJson)]

def Pipelines.toJson (p : Pipelines) : Json String :=
  .object (p.entries.map fun (name, config) => (name, config.toJson))

def LoggingConfig.toJson (l : LoggingConfig) : Json String :=
  .object [("filter", l.filter.elim .null .text), ("json", .bool l.json)]

def CollectionSettings.toJson (c : CollectionSettings) : Json String :=
  .object [("max_messages", .number (.ofNat c.maxMessages)),
    ("window_ms", .number (.ofNat c.window)), ("idle_poll_ms", .number (.ofNat c.idlePoll))]

def LeaderConfig.toJson (l : LeaderConfig) : Json String :=
  .object [("lease_ttl_ms", .number (.ofNat l.leaseTtl)), ("retry_ms", .number (.ofNat l.retry))]

def Config.toJson (c : Config) : Json String :=
  .object [("environment", .text c.environment), ("logging", c.logging.toJson),
    ("aggregator", c.collection.toJson), ("phases", .array (c.phases.map .text)),
    ("carry_over_prefixes", .array (c.carryPrefixes.map .text)), ("leader", c.leader.toJson),
    ("pipelines", c.pipelines.toJson)]

end TaskRelay
