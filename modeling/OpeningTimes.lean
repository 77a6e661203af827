import OpeningTimes.Item
import OpeningTimes.Resolver.Fixed
import OpeningTimes.Resolver.Solar
import OpeningTimes.Schedule
import OpeningTimes.Validity
import OpeningTimes.Proofs.Resolver.Fixed
import OpeningTimes.Proofs.Resolver.Moment
import OpeningTimes.Proofs.Rules.Agreement
import OpeningTimes.Proofs.Rules.Layout
import OpeningTimes.Proofs.Rules.Outcome
import OpeningTimes.Proofs.Rules.Respaced
import OpeningTimes.Proofs.Rules.Respelled
import OpeningTimes.Proofs.Text.Joining
import OpeningTimes.Proofs.Time.Text
import OpeningTimes.Proofs.Validity.Field
import OpeningTimes.Proofs.Validity.Progression
import OpeningTimes.Proofs.Weekday.Cycle
