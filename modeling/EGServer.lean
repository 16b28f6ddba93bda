import EGServer.Combat.Redirect
import EGServer.DungeonFinding.NothingLeft
import EGServer.DungeonFinding.WaitTimes
import EGServer.DungeonFinding.Restrictions
import EGServer.DungeonFinding.StatusTrace
import EGServer.DungeonFinding.CreatedProposal
import EGServer.Guilds.Authority
import EGServer.Guilds.BankMoves
import EGServer.Groups.Roster
import EGServer.Encoding.Alphabets
import EGServer.Chat.LinkCheck
import EGServer.Chat.ChannelRun
import EGServer.Chat.Completion
import EGServer.Scheduling.EventProcessorRun
import EGServer.Scheduling.EventMapRun
import EGServer.Reputation.SaveLoad
import EGServer.Networking.ByteBufferRoundTrip
import EGServer.Networking.Framing
import EGServer.Accounts.RBAC
import EGServer.Groups.LooterTurn
import EGServer.Guilds.Validate
import EGServer.Guilds.DayRun
import EGServer.Looting.OfferedVotes
import EGServer.Looting.RollOutcome
import EGServer.Looting.WindowRun
import EGServer.Items.Buyback
import EGServer.Items.BagExchange
import EGServer.Items.HasThenDestroy
import EGServer.Guilds.Teardown
import EGServer.Scheduling.TaskScheduler
import EGServer.Chat.EnumNames
import EGServer.Pools.Loading
import EGServer.Pools.QuestPoolState
import EGServer.Chat.CommandInvoker
import EGServer.Battlegrounds.PremadeMatch
import EGServer.Battlegrounds.RatedMatch
import EGServer.Utilities.Amounts
import EGServer.Utilities.Truncate
import EGServer.Holidays.Schedule
import EGServer.Holidays.PackDate
import EGServer.Movement.Progress
import EGServer.Spells.LastingCooldowns
import EGServer.Calendar.Leaving
import EGServer.Looting.TemplateRun
import EGServer.Utilities.RandomResize
import EGServer.Guilds.LogHolder
